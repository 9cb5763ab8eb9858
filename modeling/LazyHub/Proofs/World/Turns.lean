import LazyHub.Proofs.Hub.Leases
import LazyHub.Proofs.World

/-!
# Feeds and their providers, step by step

In a world each feed has its own provider, and a step of the world is a step of the hub, a step of a
provider, or both. `World.hubLabel?` is the step that the hub makes, and `step_hub` says that it makes it.

For one feed and its provider a step of the world is a `Turn`: the provider carries out a registration or its
end, the answer to a registration reaches the feed, the feed makes another step, or nothing happens that
concerns the callback. `turn_of_step` says that there is nothing else.
-/

namespace LazyHub

variable {V H R : Type}

/-- The steps of a world that can be made. -/
def Tenure.Lets : Tenure → WorldLabel V H R → Prop
  | .hub, l => l.IsOwn
  | .clients, _ => True

/-- Where the end of a registration is asked for, given the thread of the client that causes it. -/
def Place.thread (place : Place) (client : Thread) : Thread :=
  match place with
  | .inPlace => client
  | .pool => .pool

namespace World

/-- The step that the hub of a world makes in a step of the world, if it makes one. -/
def hubLabel? (w : World V H R) : WorldLabel V H R → Option (HubLabel V H R)
  | .move m => some (.move m)
  | .use i u => some (.use i u)
  | .query i => (w.sources[i]?).map fun s => .hear i (.queried s.provider.query.1)
  | .registered i => ((w.sources[i]?).bind (·.reply)).map fun reply => .hear i (.registered reply)
  | .unregister i thread =>
    match w.sources[i]?, w.holder? i with
    | some s, some (.unregistering registration place) =>
      some (.hear i (.unregistered (s.provider.unregister registration (place.thread thread)).1))
    | _, _ => none
  | .push i payload | .announce i payload =>
    ((w.sources[i]?).bind (·.provider.callback?)).map fun epoch => .invoke i epoch payload
  | .register _ | .set .. | .refuse .. => none

/-- What a step of a world leaves behind in its hub. -/
def Result.hub (r : Result V H R) : Hub.Result V H R := ⟨r.state.hub, r.effects, r.answer⟩

/-- The step that the hub makes in a step of its world, as it was made. -/
def hubMoment? (m : Moment (World V H R) (WorldLabel V H R) (HubEffect V H)) :
    Option (Moment (Hub V H R) (HubLabel V H R) (HubEffect V H)) :=
  (m.before.hubLabel? m.label).map fun l => ⟨m.before.hub, l, Result.hub m.after⟩

theorem allows_of_lets {tenure : Tenure} {w : World V H R} {l : WorldLabel V H R} {hl : HubLabel V H R}
    (lets : tenure.Lets l) (is : w.hubLabel? l = some hl) : tenure.Allows hl := by
  cases tenure with
  | clients => trivial
  | hub =>
    cases l with
    | use => exact lets.elim
    | move =>
      cases is
      trivial
    | query | registered | push | announce =>
      obtain ⟨x, -, rfl⟩ := Option.map_eq_some_iff.1 is
      trivial
    | unregister =>
      simp only [hubLabel?] at is
      split at is
      · cases is
        trivial
      · cases is
    | register | set | refuse => cases is

variable [SignalValue V] {w : World V H R} {l : WorldLabel V H R} {r : Result V H R}

theorem onHub_of_step {hl : HubLabel V H R} {hr : Hub.Result V H R} (step : w.hub.step hl = some hr) :
    w.onHub hl = some ⟨({ w with hub := hr.state } : World V H R).takeBack hr.effects, hr.effects, hr.answer⟩ := by
  rw [onHub, step]
  rfl

theorem hub_onHub {v : World V H R} {hl : HubLabel V H R} (step : v.onHub hl = some r) (same : v.hub = w.hub) :
    w.hub.step hl = some r.hub := by
  obtain ⟨hr, made, rfl⟩ := Option.map_eq_some_iff.1 step
  rw [← same, made, Result.hub, takeBack_hub]

theorem hub_invokeCallback {v : World V H R} {i : Nat} {payload : R} (step : v.invokeCallback i payload = some r)
    (same : v.hub = w.hub)
    (callback : (v.sources[i]?).bind (·.provider.callback?) = (w.sources[i]?).bind (·.provider.callback?)) :
    (∃ epoch, (w.sources[i]?).bind (·.provider.callback?) = some epoch ∧
      w.hub.step (.invoke i epoch payload) = some r.hub) ∨
    (w.sources[i]?).bind (·.provider.callback?) = none ∧ r.state.hub = w.hub ∧ r.effects = [] ∧ r.answer = none := by
  unfold invokeCallback at step
  rw [callback] at step
  split at step
  · rename_i epoch installed
    exact .inl ⟨epoch, installed, hub_onHub step same⟩
  · rename_i uninstalled
    cases step
    exact .inr ⟨uninstalled, same, rfl, rfl⟩

omit [SignalValue V] in
theorem callback?_modifyProvider {i : Nat} {change : LocalProvider R Nat → LocalProvider R Nat}
    (keeps : ∀ p, (change p).callback? = p.callback?) :
    ((w.modifyProvider i change).sources[i]?).bind (·.provider.callback?) =
      (w.sources[i]?).bind (·.provider.callback?) := by
  simp only [modifyProvider, List.getElem?_modify, if_true]
  cases w.sources[i]? with
  | none => rfl
  | some s => exact keeps _

/-- **A step of a world is a step of its hub, or none.** -/
theorem step_hub (made : w.step l = some r) :
    (∃ hl, w.hubLabel? l = some hl ∧ w.hub.step hl = some r.hub) ∨
      w.hubLabel? l = none ∧ r.state.hub = w.hub ∧ r.effects = [] ∧ r.answer = none := by
  cases l with
  | move m => exact .inl ⟨_, rfl, hub_onHub made rfl⟩
  | use i u => exact .inl ⟨_, rfl, hub_onHub made rfl⟩
  | query i =>
    simp only [World.step] at made
    split at made
    · rename_i s known
      exact .inl ⟨_, by rw [hubLabel?, known]; rfl, hub_onHub made rfl⟩
    · cases made
  | register i =>
    simp only [World.step] at made
    split at made
    · cases made
      exact .inr ⟨rfl, rfl, rfl, rfl⟩
    · cases made
  | registered i =>
    simp only [World.step] at made
    split at made
    · rename_i provider reply known
      exact .inl ⟨_, by rw [hubLabel?, known]; rfl, hub_onHub made rfl⟩
    · cases made
  | unregister i thread =>
    simp only [World.step] at made
    split at made
    · rename_i s registration place known held
      exact .inl ⟨_, by simp only [hubLabel?, known, held]; rfl, hub_onHub made rfl⟩
    · cases made
  | push i payload =>
    rcases hub_invokeCallback (w := w) made rfl (callback?_modifyProvider fun _ => rfl) with ⟨epoch, installed, made⟩ | ⟨uninstalled, rest⟩
    · exact .inl ⟨_, by rw [hubLabel?, installed]; rfl, made⟩
    · exact .inr ⟨by rw [hubLabel?, uninstalled]; rfl, rest⟩
  | announce i payload =>
    rcases hub_invokeCallback made rfl rfl with ⟨epoch, installed, made⟩ | ⟨uninstalled, rest⟩
    · exact .inl ⟨_, by rw [hubLabel?, installed]; rfl, made⟩
    · exact .inr ⟨by rw [hubLabel?, uninstalled]; rfl, rest⟩
  | set | refuse =>
    cases made
    exact .inr ⟨rfl, rfl, rfl, rfl⟩

/-- The steps that the hub makes in a run of its world. -/
def hubLabels (w : World V H R) (labels : List (WorldLabel V H R)) : List (HubLabel V H R) :=
  (trail World.step labels w).filterMap fun m => m.before.hubLabel? m.label

theorem hubLabels_of_some {rest : List (WorldLabel V H R)} {hl : HubLabel V H R} (made : w.step l = some r)
    (is : w.hubLabel? l = some hl) : w.hubLabels (l :: rest) = hl :: r.state.hubLabels rest := by
  rw [hubLabels, trail_cons made, List.filterMap_cons_some (by exact is)]
  rfl

theorem hubLabels_of_none {rest : List (WorldLabel V H R)} (made : w.step l = some r) (none : w.hubLabel? l = none) :
    w.hubLabels (l :: rest) = r.state.hubLabels rest := by
  rw [hubLabels, trail_cons made, List.filterMap_cons_none (by exact none)]
  rfl

theorem hubLabels_append {v : World V H R} {first second : List (WorldLabel V H R)} {es : List (HubEffect V H)}
    (ran : run World.step first w = some (v, es)) :
    w.hubLabels (first ++ second) = w.hubLabels first ++ v.hubLabels second := by
  rw [hubLabels, trail_append ran, List.filterMap_append]
  rfl

/-- **A run of a world is a run of its hub**, with the same effects. -/
theorem run_hub {v : World V H R} {labels : List (WorldLabel V H R)} {es : List (HubEffect V H)}
    (ran : run World.step labels w = some (v, es)) :
    run Hub.step (w.hubLabels labels) w.hub = some (v.hub, es) ∧
      trail Hub.step (w.hubLabels labels) w.hub = (trail World.step labels w).filterMap hubMoment? ∧
      ∀ tenure : Tenure, (∀ l ∈ labels, tenure.Lets l) → ∀ l ∈ w.hubLabels labels, tenure.Allows l := by
  induction labels generalizing w es with
  | nil =>
    cases ran
    exact ⟨rfl, rfl, fun _ _ => nofun⟩
  | cons l rest ih =>
    obtain ⟨r, later, made, onward, rfl⟩ := run_cons.1 ran
    obtain ⟨ranHub, same, allowed⟩ := ih onward
    have lets' : ∀ {tenure : Tenure}, (∀ x ∈ l :: rest, tenure.Lets x) → ∀ x ∈ r.state.hubLabels rest, tenure.Allows x :=
      fun lets => allowed _ fun x hx => lets x (List.mem_cons_of_mem _ hx)
    rw [trail_cons made]
    rcases step_hub made with ⟨hl, is, step⟩ | ⟨none, hub, silent, -⟩
    · rw [hubLabels_of_some made is]
      refine ⟨run_cons.2 ⟨_, _, step, ranHub, rfl⟩, ?_, fun tenure lets =>
        List.forall_mem_cons.2 ⟨allows_of_lets (lets l List.mem_cons_self) is, lets' lets⟩⟩
      rw [trail_cons step, List.filterMap_cons_some (by rw [hubMoment?, is]; rfl), ← same]
      rfl
    · rw [hub] at ranHub same
      rw [hubLabels_of_none made none]
      refine ⟨by rw [silent]; exact ranHub, ?_, fun tenure lets => lets' lets⟩
      rw [same, List.filterMap_cons_none (by rw [hubMoment?, none]; rfl)]

/-- No feed comes or goes. -/
theorem length_feeds_of_run {v : World V H R} {labels : List (WorldLabel V H R)} {es : List (HubEffect V H)}
    (ran : run World.step labels w = some (v, es)) : v.hub.feeds.length = w.hub.feeds.length :=
  run_keeps (P := fun k => k.feeds.length = w.hub.feeds.length)
    (fun _ _ _ _ same made => ((Hub.transition_of_step made).length_feeds).trans same) (run_hub ran).1 rfl

/-! ### What becomes of a provider -/

omit [SignalValue V] in
theorem sources_takeBack (w : World V H R) (es : List (HubEffect V H)) {i : Nat} {s : Source R}
    (known : w.sources[i]? = some s) :
    (w.takeBack es).sources[i]? =
      some { s with provider := { s.provider with released := s.provider.released + es.countP (·.isReleased i) } } := by
  induction es generalizing w s with
  | nil => exact known
  | cons e rest ih =>
    cases e with
    | released j =>
      by_cases eq : j = i
      · subst eq
        have next : (w.modifyProvider j LocalProvider.takeBack).sources[j]? =
            some { s with provider := s.provider.takeBack } := by
          simp only [modifyProvider, List.getElem?_modify, if_true, known]
          rfl
        rw [List.countP_cons_of_pos (by simp [HubEffect.isReleased]), Nat.add_comm (rest.countP _), ← Nat.add_assoc]
        exact ih _ next
      · rw [List.countP_cons_of_neg (by simp [HubEffect.isReleased, eq])]
        exact ih _ (by simp only [modifyProvider, List.getElem?_modify, if_neg eq, known]; rfl)
    | _ => exact ih w known

theorem sources_onHub {v : World V H R} {hl : HubLabel V H R} (step : v.onHub hl = some r) {i : Nat} {s : Source R}
    (known : v.sources[i]? = some s) :
    r.state.sources[i]? = some
      { s with provider := { s.provider with released := s.provider.released + r.effects.countP (·.isReleased i) } } := by
  obtain ⟨hr, -, rfl⟩ := Option.map_eq_some_iff.1 step
  exact sources_takeBack { v with hub := hr.state } hr.effects known

theorem sources_invokeCallback {v : World V H R} {j : Nat} {payload : R} (step : v.invokeCallback j payload = some r)
    {i : Nat} {s : Source R} (known : v.sources[i]? = some s) :
    r.state.sources[i]? = some
      { s with provider := { s.provider with released := s.provider.released + r.effects.countP (·.isReleased i) } } := by
  unfold invokeCallback at step
  split at step
  · exact sources_onHub step known
  · cases step
    exact known

omit [SignalValue V] in
theorem sources_modifyProvider {i j : Nat} {change : LocalProvider R Nat → LocalProvider R Nat} {s : Source R}
    (known : w.sources[i]? = some s) :
    (w.modifyProvider j change).sources[i]? =
      some (if j = i then { s with provider := change s.provider } else s) := by
  simp only [modifyProvider, List.getElem?_modify, known]
  split <;> rfl

end World

theorem LocalProvider.callback_query {C : Type} (p : LocalProvider R C) : p.query.2.callback = p.callback := by
  unfold query
  dsimp only
  split <;> rfl

/-! ### Turns -/

/-- A provider keeps its callback, and an answer that travels from it goes on travelling. -/
def Source.Keeps (s s' : Source R) : Prop := s'.provider.callback = s.provider.callback ∧ s'.reply = s.reply

/-- A provider that is changed without its callback being touched keeps it. -/
theorem Source.keeps_ite {s : Source R} {p : Prop} [Decidable p] {provider : LocalProvider R Nat}
    (same : p → provider.callback = s.provider.callback) : s.Keeps (if p then { s with provider } else s) := by
  split
  · rename_i h
    exact ⟨same h, rfl⟩
  · exact ⟨rfl, rfl⟩

section Turn

variable [SignalValue V]

/-- **What a step of a world is for a feed and its provider**, given what the hub is told in it. -/
inductive Turn (tenure : Tenure) (i : Nat) (f : Feed V H R) (s : Source R) :
    Option (HubLabel V H R) → Feed V H R → Source R → Prop where
  /-- Nothing that concerns the feed, nor the provider's callback. -/
  | apart {told : Option (HubLabel V H R)} {s' : Source R} (keeps : s.Keeps s')
      (unheard : ∀ reply, told ≠ some (.hear i reply)) : Turn tenure i f s told f s'
  /-- The feed makes a step that is not about its registration. -/
  | fed {hl : HubLabel V H R} {fl : FeedLabel V H R} {fr : Feed.Result V H R} {s' : Source R}
      (step : f.step fl = some fr) (keeps : s.Keeps s') (ofHub : tenure = .hub → f.OfHub fl)
      (heard : ∀ reply, fl = .hear reply ↔ hl = .hear i reply)
      (unregistered : ∀ answer, fl ≠ .hear (.registered answer)) (unended : ∀ answer, fl ≠ .hear (.unregistered answer)) :
      Turn tenure i f s (some hl) fr.state s'
  /-- The provider carries out or refuses a registration. -/
  | register {purpose : Purpose H} {s' : Source R} (held : f.holder = some (.registering purpose))
      (silent : s.reply = none) (replies : s'.reply = some (s.provider.register f.epoch).1)
      (callback : s'.provider.callback = (s.provider.register f.epoch).2.callback) : Turn tenure i f s none f s'
  /-- The answer to a registration reaches the feed. -/
  | registered {answer : Except ProviderFailure Registration} {fr : Feed.Result V H R} {s' : Source R}
      (replied : s.reply = some answer) (step : f.step (.hear (.registered answer)) = some fr)
      (callback : s'.provider.callback = s.provider.callback) (silent : s'.reply = none) :
      Turn tenure i f s (some (.hear i (.registered answer))) fr.state s'
  /-- The provider carries out or refuses the end of a registration. -/
  | unregister {registration : Registration} {place : Place} {thread : Thread} {fr : Feed.Result V H R}
      {s' : Source R} (held : f.holder = some (.unregistering registration place))
      (step : f.step (.hear (.unregistered (s.provider.unregister registration thread).1)) = some fr)
      (callback : s'.provider.callback = (s.provider.unregister registration thread).2.callback)
      (same : s'.reply = s.reply) :
      Turn tenure i f s (some (.hear i (.unregistered (s.provider.unregister registration thread).1))) fr.state s'

variable {plans : List (FeedPlan V)} {tenure : Tenure}

/-- What a step of a hub is for one of its feeds. -/
theorem Hub.Arises.feed_of_step {h : Hub V H R} {hl : HubLabel V H R} {r : Hub.Result V H R} {i : Nat}
    {f : Feed V H R} (arises : Hub.Arises plans tenure h) (allowed : tenure.Allows hl) (made : h.step hl = some r)
    (there : h.feeds[i]? = some f) :
    (∃ fl fr, r.state.feeds[i]? = some fr.state ∧ f.step fl = some fr ∧ (tenure = .hub → f.OfHub fl) ∧
      ∀ reply, fl = .hear reply ↔ hl = .hear i reply) ∨
    r.state.feeds[i]? = some f ∧ ∀ reply, hl ≠ .hear i reply := by
  rcases (Hub.transition_of_step made).mirrors arises there with ⟨fl, fr, after, step, -, -, makes⟩ | ⟨same, passes⟩
  · refine .inl ⟨fl, fr, after, step, ?_, makes.hear_iff⟩
    rintro rfl
    exact makes.ofHub arises allowed (List.mem_of_getElem? there) step
  · refine .inr ⟨same, ?_⟩
    rintro reply rfl
    exact passes.unserved _ _ .hear

/-- A step of the hub in which no registration is answered or ended is no more than that for a feed. -/
theorem World.turn_of_hub {w : World V H R} {hl : HubLabel V H R} {r : World.Result V H R} {i : Nat} {f : Feed V H R}
    {s s' : Source R} (arises : Hub.Arises plans tenure w.hub) (allowed : tenure.Allows hl)
    (made : w.hub.step hl = some r.hub) (there : w.hub.feeds[i]? = some f) (after : r.state.sources[i]? = some s')
    (keeps : s.Keeps s') (unregistered : ∀ answer, hl ≠ .hear i (.registered answer))
    (unended : ∀ answer, hl ≠ .hear i (.unregistered answer)) :
    ∃ f' s', r.state.hub.feeds[i]? = some f' ∧ r.state.sources[i]? = some s' ∧ Turn tenure i f s (some hl) f' s' := by
  rcases arises.feed_of_step allowed made there with ⟨fl, fr, there', step, ofHub, heard⟩ | ⟨same, unheard⟩
  · exact ⟨_, s', there', after, .fed step keeps ofHub heard (fun answer eq => unregistered answer ((heard _).1 eq))
      fun answer eq => unended answer ((heard _).1 eq)⟩
  · exact ⟨f, s', same, after, .apart keeps fun reply eq => unheard reply (Option.some.inj eq)⟩

/-- **A step of a world is a turn** of every feed and its provider. -/
theorem World.turn_of_step {w : World V H R} {l : WorldLabel V H R} {r : World.Result V H R} {i : Nat} {f : Feed V H R}
    {s : Source R} (arises : Hub.Arises plans tenure w.hub) (lets : tenure.Lets l) (made : w.step l = some r)
    (there : w.hub.feeds[i]? = some f) (known : w.sources[i]? = some s) :
    ∃ f' s', r.state.hub.feeds[i]? = some f' ∧ r.state.sources[i]? = some s' ∧
      Turn tenure i f s (w.hubLabel? l) f' s' := by
  have allowed : ∀ {hl}, w.hubLabel? l = some hl → tenure.Allows hl := fun is => World.allows_of_lets lets is
  have invoked : ∀ {j payload s'}, l = .push j payload ∨ l = .announce j payload → w.step l = some r →
      r.state.sources[i]? = some s' → s.Keeps s' →
      ∃ f' s', r.state.hub.feeds[i]? = some f' ∧ r.state.sources[i]? = some s' ∧
        Turn tenure i f s (w.hubLabel? l) f' s' := by
    intro j payload s' which made after keeps
    rcases World.step_hub made with ⟨hl, is, step⟩ | ⟨none, hub, -⟩
    · obtain ⟨epoch, rfl⟩ : ∃ epoch, hl = .invoke j epoch payload := by
        rcases which with rfl | rfl <;> exact (Option.map_eq_some_iff.1 is).imp fun _ h => h.2.symm
      rw [is]
      exact World.turn_of_hub arises (allowed is) step there after keeps (by simp) (by simp)
    · rw [none]
      exact ⟨f, s', hub ▸ there, after, .apart keeps (by simp)⟩
  cases l with
  | move m =>
    have after := World.sources_onHub made known
    exact World.turn_of_hub arises (allowed rfl) (World.hub_onHub made rfl) there after ⟨rfl, rfl⟩ (by simp) (by simp)
  | use j u =>
    have after := World.sources_onHub made known
    exact World.turn_of_hub arises (allowed rfl) (World.hub_onHub made rfl) there after ⟨rfl, rfl⟩ (by simp) (by simp)
  | query j =>
    simp only [World.step] at made
    split at made
    · rename_i s₀ known₀
      have is : w.hubLabel? (.query j) = some (.hear j (.queried s₀.provider.query.1)) := by
        rw [World.hubLabel?, known₀]
        rfl
      have after := World.sources_onHub made (World.sources_modifyProvider known)
      rw [is]
      refine World.turn_of_hub arises (allowed is) (World.hub_onHub made rfl) there after ?_ (by simp) (by simp)
      refine Source.keeps_ite ?_
      rintro rfl
      obtain rfl := Option.some.inj (known₀.symm.trans known)
      exact LocalProvider.callback_query _
    · cases made
  | register j =>
    simp only [World.step] at made
    split at made
    · rename_i provider f₀ purpose known₀ there₀ held₀
      cases made
      by_cases eq : j = i
      · subst eq
        obtain rfl := Option.some.inj (known.symm.trans known₀)
        obtain rfl := Option.some.inj (there.symm.trans there₀)
        have held : f.holder = some (.registering purpose) := by
          simpa [World.holder?, there] using held₀
        exact ⟨f, _, there, List.getElem?_set_self (List.getElem?_eq_some_iff.1 known).1, .register held rfl rfl rfl⟩
      · exact ⟨f, s, there, (List.getElem?_set_ne eq).trans known, .apart ⟨rfl, rfl⟩ (by simp [World.hubLabel?])⟩
    · cases made
  | registered j =>
    simp only [World.step] at made
    split at made
    · rename_i provider answer known₀
      have is : w.hubLabel? (.registered j) = some (.hear j (.registered answer)) := by
        rw [World.hubLabel?, known₀]
        rfl
      rw [is]
      by_cases eq : j = i
      · subst eq
        obtain rfl := Option.some.inj (known.symm.trans known₀)
        have after := World.sources_onHub made (List.getElem?_set_self (List.getElem?_eq_some_iff.1 known).1)
        rcases arises.feed_of_step (allowed is) (World.hub_onHub made rfl) there with
          ⟨fl, fr, there', step, -, heard⟩ | ⟨-, unheard⟩
        · obtain rfl := (heard _).2 rfl
          exact ⟨_, _, there', after, .registered rfl step rfl rfl⟩
        · exact absurd rfl (unheard _)
      · have after := World.sources_onHub made ((List.getElem?_set_ne eq).trans known)
        exact World.turn_of_hub arises (allowed is) (World.hub_onHub made rfl) there after ⟨rfl, rfl⟩
          (by rintro answer ⟨⟩; exact eq rfl) (by simp)
    · cases made
  | unregister j thread =>
    simp only [World.step] at made
    split at made
    · rename_i s₀ registration place known₀ held₀
      have is : w.hubLabel? (.unregister j thread) =
          some (.hear j (.unregistered (s₀.provider.unregister registration (place.thread thread)).1)) := by
        simp only [World.hubLabel?, known₀, held₀]
      have after := World.sources_onHub made (World.sources_modifyProvider known)
      rw [is]
      by_cases eq : j = i
      · subst eq
        obtain rfl := Option.some.inj (known.symm.trans known₀)
        have held : f.holder = some (.unregistering registration place) := by
          simpa [World.holder?, there] using held₀
        rcases arises.feed_of_step (allowed is) (World.hub_onHub made rfl) there with
          ⟨fl, fr, there', step, -, heard⟩ | ⟨-, unheard⟩
        · obtain rfl := (heard _).2 rfl
          rw [if_pos rfl] at after
          exact ⟨_, _, there', after, .unregister held step rfl rfl⟩
        · exact absurd rfl (unheard _)
      · rw [if_neg eq] at after
        exact World.turn_of_hub arises (allowed is) (World.hub_onHub made rfl) there after ⟨rfl, rfl⟩ (by simp)
          (by rintro answer ⟨⟩; exact eq rfl)
    · cases made
  | push j payload =>
    have after := World.sources_invokeCallback made (World.sources_modifyProvider known)
    have keeps : s.Keeps (if j = i then { s with provider := s.provider.set payload } else s) :=
      Source.keeps_ite fun _ => rfl
    exact invoked (.inl rfl) made after keeps
  | announce j payload =>
    have after := World.sources_invokeCallback made known
    exact invoked (.inr rfl) made after ⟨rfl, rfl⟩
  | set j payload =>
    cases made
    exact ⟨f, _, there, World.sources_modifyProvider known, .apart (Source.keeps_ite fun _ => rfl) (by simp [World.hubLabel?])⟩
  | refuse j call message =>
    cases made
    refine ⟨f, _, there, World.sources_modifyProvider known, .apart (Source.keeps_ite fun _ => ?_) (by simp [World.hubLabel?])⟩
    cases call <;> rfl

end Turn

end LazyHub
