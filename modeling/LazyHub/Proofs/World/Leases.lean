import LazyHub.Proofs.World.Registrations

/-!
# Every lease comes back

In a world of in-process providers every payload that is lent is given back once, before its values are used and
before the operation that it was lent for is over (`World.leases_come_back`). Hence a provider has taken back as
many payloads as it has lent whenever nothing is under way at its feed.

A provider lends a payload when it answers a query, and when it has a callback to invoke (`World.Lends`). It can
always invoke the callback that it has (`Invocable`): the feed does not withdraw it before the provider drops it.
-/

namespace LazyHub

variable {V H R : Type}

/-! ### Callbacks that can be invoked -/

/-- The callback that a provider has, and the one that it is being given, can be invoked. -/
structure Invocable (f : Feed V H R) (s : Source R) : Prop where
  /-- Who registers a callback is ready for it. -/
  registering : ∀ purpose, f.holder = some (.registering purpose) → f.epoch ∈ f.callbacks
  /-- The provider's callback is one of the feed's. -/
  installed : ∀ c, s.provider.callback = some c → c.2 ∈ f.callbacks

namespace Feed

variable [SignalValue V] {f : Feed V H R} {l : FeedLabel V H R} {r : Result V H R}

theorem Transition.epoch_mem_callbacks (t : f.Transition l r)
    (h : ∀ purpose, f.holder = some (.registering purpose) → f.epoch ∈ f.callbacks) (purpose : Purpose H)
    (held' : r.state.holder = some (.registering purpose)) : r.state.epoch ∈ r.state.callbacks := by
  cases t with
  | settle => exact List.mem_append_right _ (List.mem_singleton_self _)
  | activate | deactivate | refresh | subscribe | detachLast | shutdown | queryFailed | queried | registerFailed
  | subscribed | activated | unregistered | decodeFailed | decoded | seed | settleRefresh | clear | cleared
  | clearedInactive | withdraw | retire | dropLast => cases held'
  | _ => exact h purpose held'

/-- A callback is withdrawn only when its registration is refused. -/
theorem Transition.mem_callbacks (t : f.Transition l r) {epoch : Nat} (given : epoch ∈ f.callbacks)
    (kept : ∀ failure, l = .hear (.registered (.error failure)) → epoch ≠ f.epoch) : epoch ∈ r.state.callbacks := by
  cases t with
  | registerFailed => exact (List.mem_erase_of_ne (kept _ rfl)).2 given
  | settle => exact List.mem_append_left _ given
  | _ => exact given

end Feed

namespace LocalProvider

variable {C : Type} (p : LocalProvider R C)

theorem callback_register {c : C} {installed : Registration × C} (some' : (p.register c).2.callback = some installed) :
    p.callback = some installed ∨ installed.2 = c := by
  cases taken : p.callback with
  | none =>
    rcases register_of_none taken c with ⟨failure, -, none⟩ | ⟨registration, -, same⟩
    · cases none.symm.trans some'
    · cases same.symm.trans some'
      exact .inr rfl
  | some old =>
    obtain ⟨failure, refuses⟩ := register_of_some taken
    exact .inl ((refuses c).2.symm.trans some')

theorem callback_unregister {registration : Registration} {thread : Thread} {installed : Registration × C}
    (some' : (p.unregister registration thread).2.callback = some installed) : p.callback = some installed := by
  unfold unregister at some'
  dsimp only at some'
  split at some'
  · exact some'
  · split at some'
    · split at some'
      · cases some'
      · exact some'
    · exact some'

end LocalProvider

section Turn

variable [SignalValue V] {tenure : Tenure} {i : Nat} {f f' : Feed V H R} {s s' : Source R}
  {told : Option (HubLabel V H R)}

/-- **A turn leaves the provider's callback invocable.** -/
theorem Invocable.turn (h : Invocable f s) (o : f.Orderly)
    (outcome : Agrees tenure f s ∨ ∃ installed, Orphaned tenure installed f s) (turn : Turn tenure i f s told f' s') :
    Invocable f' s' := by
  cases turn with
  | apart keeps => exact ⟨h.registering, fun c some => h.installed c (keeps.1 ▸ some)⟩
  | fed step keeps _ _ unregistered =>
    have t := Feed.transition_of_step step
    refine ⟨t.epoch_mem_callbacks h.registering, fun c some => ?_⟩
    exact t.mem_callbacks (h.installed c (keeps.1 ▸ some)) fun failure eq => absurd eq (unregistered _)
  | register held silent replies callback =>
    refine ⟨h.registering, fun c some => ?_⟩
    rcases LocalProvider.callback_register _ (callback.symm.trans some) with old | new
    · exact h.installed c old
    · exact new ▸ h.registering _ held
  | @registered answer fr s' replied step callback silent =>
    have t := Feed.transition_of_step step
    refine ⟨t.epoch_mem_callbacks h.registering, fun c some => ?_⟩
    have installed := callback.symm.trans some
    refine t.mem_callbacks (h.installed c installed) fun failure eq => ?_
    obtain rfl : answer = .error failure := by simpa using eq
    -- a provider that refuses a registration has no callback, or one of another epoch
    obtain ⟨registers, -, -⟩ := t.stage_of_registered o
    rcases outcome with agrees | ⟨orphan, orphaned⟩
    · have none := agrees.callback
      simp only [registers, replied] at none
      cases none.symm.trans installed
    · obtain rfl := Option.some.inj (orphaned.callback.symm.trans installed)
      rcases orphaned.outdated with lt | ⟨-, unowned⟩
      · exact Nat.ne_of_lt lt
      · have unpulled := o.handled (Nat.add_eq_zero_iff.1 unowned).1
        cases t with
        | registerFailed held =>
          rw [Feed.pull?, held] at unpulled
          cases unpulled
  | unregister held step callback =>
    have t := Feed.transition_of_step step
    refine ⟨t.epoch_mem_callbacks h.registering, fun c some => ?_⟩
    have installed := LocalProvider.callback_unregister _ (callback.symm.trans some)
    exact t.mem_callbacks (h.installed c installed) (by simp)

end Turn

/-! ### What a provider has, and takes back -/

namespace LocalProvider

variable {C : Type} (p : LocalProvider R C)

theorem kept_query : p.query.2.current = p.current ∧ p.query.2.released = p.released := by
  unfold query
  dsimp only
  split <;> exact ⟨rfl, rfl⟩

theorem kept_register (c : C) : (p.register c).2.current = p.current ∧ (p.register c).2.released = p.released := by
  unfold register
  dsimp only
  split
  · exact ⟨rfl, rfl⟩
  · split <;> exact ⟨rfl, rfl⟩

theorem kept_unregister (registration : Registration) (thread : Thread) :
    (p.unregister registration thread).2.current = p.current ∧
      (p.unregister registration thread).2.released = p.released := by
  unfold unregister
  dsimp only
  split
  · exact ⟨rfl, rfl⟩
  · split
    · split <;> exact ⟨rfl, rfl⟩
    · exact ⟨rfl, rfl⟩

end LocalProvider

/-- What queries of a feed's provider show after a step, given what they showed before. -/
def WorldLabel.payload (i : Nat) (current : R) : WorldLabel V H R → R
  | .push j payload | .set j payload => if j = i then payload else current
  | _ => current

namespace World

/-- A provider lends a payload in a step: it answers a query, or it has a callback to invoke. -/
def Lends (i : Nat) (m : Moment (World V H R) (WorldLabel V H R) (HubEffect V H)) : Bool :=
  match m.label with
  | .query j => j = i && (m.before.sources[i]?).any fun s => s.provider.query.1.isOk
  | .push j _ | .announce j _ => j = i && (m.before.sources[i]?).any fun s => s.provider.isRegistered
  | _ => false

/-- What is done in the course of a world's run with the payload of a feed's loan. -/
def loansOf (i : Nat) (loan : Loan) (past : List (Moment (World V H R) (WorldLabel V H R) (HubEffect V H))) :
    List LoanEvent :=
  (past.filterMap hubMoment?).flatMap (Hub.loanEventsAt i loan)

/-- A provider lends as many payloads as its feed is handed. -/
theorem lentAt_eq {w : World V H R} {l : WorldLabel V H R} {i : Nat} (after : Stepped (World V H R) (HubEffect V H)) :
    ((w.hubLabel? l).map (Hub.lentAt i)).getD 0 = if Lends i ⟨w, l, after⟩ then 1 else 0 := by
  have invoked : ∀ (j : Nat) (payload : R),
      ((((w.sources[j]?).bind (·.provider.callback?)).map fun epoch => HubLabel.invoke (V := V) (H := H) j epoch payload).map
        (Hub.lentAt i)).getD 0 =
        if (decide (j = i) && (w.sources[i]?).any fun s => s.provider.isRegistered) then 1 else 0 := by
    intro j payload
    by_cases eq : j = i
    · subst eq
      cases known : w.sources[j]? with
      | none => simp
      | some s =>
        cases installed : s.provider.callback <;>
          simp [LocalProvider.callback?, LocalProvider.isRegistered, installed, Hub.lentAt, HubLabel.inFeed?,
            FeedLabel.handles]
    · cases (w.sources[j]?).bind (·.provider.callback?) <;> simp [Hub.lentAt, HubLabel.inFeed?, eq]
  cases l with
  | move m =>
    cases m with
    | advance j move =>
      by_cases eq : j = i
      · cases move <;> simp [hubLabel?, Lends, Hub.lentAt, HubLabel.inFeed?, eq, FeedLabel.handles]
      · simp [hubLabel?, Lends, Hub.lentAt, HubLabel.inFeed?, eq]
    | _ => rfl
  | query j =>
    by_cases eq : j = i
    · subst eq
      cases known : w.sources[j]? with
      | none => simp [hubLabel?, Lends, known]
      | some s =>
        cases answer : s.provider.query.1 <;>
          simp [hubLabel?, Lends, known, answer, Hub.lentAt, HubLabel.inFeed?, FeedLabel.handles, Except.isOk,
            Except.toBool]
    · simp only [hubLabel?, Lends, eq, decide_false, Bool.false_and]
      cases w.sources[j]? <;> simp [Hub.lentAt, HubLabel.inFeed?, eq]
  | registered j =>
    simp only [hubLabel?, Lends]
    cases (w.sources[j]?).bind (·.reply) with
    | none => rfl
    | some reply => by_cases eq : j = i <;> simp [Hub.lentAt, HubLabel.inFeed?, eq, FeedLabel.handles]
  | unregister j thread =>
    simp only [hubLabel?, Lends]
    split
    · by_cases eq : j = i <;> simp [Hub.lentAt, HubLabel.inFeed?, eq, FeedLabel.handles]
    · rfl
  | push j payload | announce j payload => exact invoked j payload
  | use | register | set | refuse => rfl

variable [SignalValue V] {plans : List (FeedPlan V × R)} {tenure : Tenure} {start w v : World V H R}
  {labels : List (WorldLabel V H R)} {es : List (HubEffect V H)} {i : Nat} {f : Feed V H R} {s : Source R}

/-- A provider has the payload that a step gives it, if it gives it one, and takes back the leases that the step ends
and no others. -/
theorem provider_of_step {l : WorldLabel V H R} {r : Result V H R} (made : w.step l = some r)
    (known : w.sources[i]? = some s) :
    ∃ s', r.state.sources[i]? = some s' ∧ s'.provider.current = l.payload i s.provider.current ∧
      s'.provider.released = s.provider.released + r.effects.countP (·.isReleased i) := by
  -- what a provider is made into before the hub makes its step has taken back nothing
  have changed : ∀ (j : Nat) (change : LocalProvider R Nat → LocalProvider R Nat) {now : R},
      (j = i → (change s.provider).current = now ∧ (change s.provider).released = s.provider.released) →
      (j ≠ i → now = s.provider.current) →
      ∃ s', (w.modifyProvider j change).sources[i]? = some s' ∧ s'.provider.current = now ∧
        s'.provider.released = s.provider.released := by
    intro j change now own other
    refine ⟨_, sources_modifyProvider known, ?_⟩
    split
    · rename_i eq
      exact own eq
    · rename_i ne
      exact ⟨(other ne).symm, rfl⟩
  have onHub : ∀ {u : World V H R} {hl : HubLabel V H R} {s' : Source R} {now : R}, u.onHub hl = some r →
      u.sources[i]? = some s' → s'.provider.current = now ∧ s'.provider.released = s.provider.released →
      ∃ s', r.state.sources[i]? = some s' ∧ s'.provider.current = now ∧
        s'.provider.released = s.provider.released + r.effects.countP (·.isReleased i) := by
    intro u hl s' now made known' same
    exact ⟨_, sources_onHub made known', same.1, congrArg (· + _) same.2⟩
  cases l with
  | move | use => exact onHub made known ⟨rfl, rfl⟩
  | query j =>
    simp only [World.step] at made
    split at made
    · rename_i s₀ known₀
      obtain ⟨s', known', same⟩ := changed j (fun _ => s₀.provider.query.2) (by
        rintro rfl
        obtain rfl := Option.some.inj (known₀.symm.trans known)
        exact LocalProvider.kept_query _) fun _ => rfl
      exact onHub made known' same
    · cases made
  | register j =>
    simp only [World.step] at made
    split at made
    · rename_i provider g purpose known₀ there₀ held₀
      cases made
      by_cases eq : j = i
      · subst eq
        obtain rfl := Option.some.inj (known.symm.trans known₀)
        exact ⟨_, List.getElem?_set_self (List.getElem?_eq_some_iff.1 known).1, LocalProvider.kept_register _ _⟩
      · exact ⟨s, (List.getElem?_set_ne eq).trans known, rfl, rfl⟩
    · cases made
  | registered j =>
    simp only [World.step] at made
    split at made
    · rename_i provider reply known₀
      by_cases eq : j = i
      · subst eq
        obtain rfl := Option.some.inj (known.symm.trans known₀)
        exact onHub made (List.getElem?_set_self (List.getElem?_eq_some_iff.1 known).1) ⟨rfl, rfl⟩
      · exact onHub made ((List.getElem?_set_ne eq).trans known) ⟨rfl, rfl⟩
    · cases made
  | unregister j thread =>
    simp only [World.step] at made
    split at made
    · rename_i s₀ registration place known₀ held₀
      obtain ⟨s', known', same⟩ := changed j
        (fun _ => (s₀.provider.unregister registration (place.thread thread)).2) (by
          rintro rfl
          obtain rfl := Option.some.inj (known₀.symm.trans known)
          exact LocalProvider.kept_unregister _ _ _) fun _ => rfl
      exact onHub made known' same
    · cases made
  | push j payload =>
    obtain ⟨s', known', current, same⟩ := changed j (·.set payload)
      (fun eq => ⟨(if_pos eq).symm, rfl⟩) fun ne => if_neg ne
    exact ⟨_, sources_invokeCallback made known', current, congrArg (· + _) same⟩
  | announce j payload => exact ⟨_, sources_invokeCallback made known, rfl, rfl⟩
  | set j payload =>
    cases made
    exact changed _ _ (fun eq => ⟨(if_pos eq).symm, rfl⟩) fun ne => if_neg ne
  | refuse j call message =>
    cases made
    exact changed _ _ (fun _ => by cases call <;> exact ⟨rfl, rfl⟩) fun _ => rfl

/-- What a provider lends it has taken back, or it is on loan. -/
theorem balance_of_run {plans : List (FeedPlan V)} (arises : Hub.Arises plans tenure w.hub)
    (lets : ∀ l ∈ labels, tenure.Lets l) (ran : run World.step labels w = some (v, es))
    (there : w.hub.feeds[i]? = some f) (known : w.sources[i]? = some s) (distinct : (f.pushes.map (·.number)).Nodup) :
    ∃ f' s', v.hub.feeds[i]? = some f' ∧ v.sources[i]? = some s' ∧
      s'.provider.released + f'.onLoan =
        s.provider.released + f.onLoan + (trail World.step labels w).countP (Lends i) := by
  induction labels generalizing w es f s with
  | nil =>
    cases ran
    exact ⟨f, s, there, known, rfl⟩
  | cons l rest ih =>
    obtain ⟨r, later, made, onward, rfl⟩ := run_cons.1 ran
    have lets' := lets l List.mem_cons_self
    obtain ⟨s₁, known₁, -, released⟩ := provider_of_step made known
    have one : ∃ f₁, r.state.hub.feeds[i]? = some f₁ ∧ (f₁.pushes.map (·.number)).Nodup ∧
        r.effects.countP (·.isReleased i) + f₁.onLoan = f.onLoan + if Lends i ⟨w, l, r⟩ then 1 else 0 := by
      rw [← lentAt_eq r]
      rcases step_hub made with ⟨hl, is, step⟩ | ⟨none, hub, silent, -⟩
      · rw [is]
        exact (Hub.transition_of_step step).balance_at arises there distinct
      · rw [none, hub, silent]
        exact ⟨f, there, distinct, Nat.add_comm 0 _⟩
    obtain ⟨f₁, there₁, distinct₁, balance⟩ := one
    obtain ⟨f', s', there', known', total⟩ := ih (arises_step arises lets' made)
      (fun l hl => lets l (List.mem_cons_of_mem _ hl)) onward there₁ known₁ distinct₁
    refine ⟨f', s', there', known', ?_⟩
    rw [trail_cons made, List.countP_cons]
    omega

/-- A provider can invoke its callback wherever a world comes to. -/
theorem Opens.invocable_of_run (opens : Opens plans tenure start) (lets : ∀ l ∈ labels, tenure.Lets l)
    (ran : run World.step labels start = some (w, es)) (there : w.hub.feeds[i]? = some f)
    (known : w.sources[i]? = some s) : Invocable f s := by
  induction labels using List.reverseRecOn generalizing w es f s with
  | nil =>
    cases ran
    obtain ⟨hub, sources⟩ := opens.eq
    obtain ⟨plan, -, rfl⟩ := hub.ofPlan there
    rw [sources] at known
    obtain ⟨p, -, rfl⟩ := Option.map_eq_some_iff.1 (List.getElem?_map.symm.trans known)
    exact ⟨nofun, nofun⟩
  | append_singleton first l ih =>
    obtain ⟨u, before, after, ranFirst, last, rfl⟩ := run_append.1 ran
    obtain ⟨r, later, made, onward, -⟩ := run_cons.1 last
    cases onward
    have lets' : ∀ l ∈ first, tenure.Lets l := fun l hl => lets l (List.mem_append_left _ hl)
    have letsLast := lets l (List.mem_append_right _ (List.mem_singleton_self _))
    have lt : i < u.hub.feeds.length := length_feeds_of_run last ▸ (List.getElem?_eq_some_iff.1 there).1
    have thereU := List.getElem?_eq_getElem lt
    obtain ⟨arises, su, knownU, outcome⟩ := opens.agrees_of_run lets' ranFirst thereU
    obtain ⟨f', s', there', known', turn⟩ := turn_of_step arises letsLast made thereU knownU
    obtain rfl := Option.some.inj (there.symm.trans there')
    obtain rfl := Option.some.inj (known.symm.trans known')
    exact (ih lets' ranFirst thereU knownU).turn (arises.kept thereU).1 (outcome.imp And.right And.right) turn

/-- What was done with payloads is in the book of the feed that they were lent to. -/
theorem Opens.loanBook_of_run (opens : Opens plans tenure start) (lets : ∀ l ∈ labels, tenure.Lets l)
    (ran : run World.step labels start = some (w, es)) (there : w.hub.feeds[i]? = some f) :
    ∃ own, Feed.LoanBook own f ∧
      ∀ loan, loansOf i loan (trail World.step labels start) = own.flatMap (Feed.loanEvents loan) := by
  obtain ⟨ranHub, same, allowed⟩ := run_hub ran
  obtain ⟨plan, own, fes, -, ranOwn, mirrors⟩ := opens.eq.1.mirrors (allowed tenure lets) ranHub there
  refine ⟨_, Feed.loanBook_of_run ranOwn, fun loan => ?_⟩
  rw [loansOf, ← same]
  exact mirrors.loanEvents_eq loan

/-- A step of a world that is told of in the course of no payload gives nothing back, and changes no cache and
posts nothing. -/
theorem disclosed_of_step {plans : List (FeedPlan V)} (arises : Hub.Arises plans tenure w.hub)
    {l : WorldLabel V H R} {r : Result V H R} (made : w.step l = some r) (there : w.hub.feeds[i]? = some f) :
    ((∀ loan, .returned ∉ loansOf i loan [⟨w, l, r⟩]) → .released i ∉ r.effects) ∧
      ((∀ loan, .used ∉ loansOf i loan [⟨w, l, r⟩]) →
        r.state.hub.feeds[i]?.map Feed.gates = w.hub.feeds[i]?.map Feed.gates ∧
          ∀ worker signal value, .job signal ⟨i, value⟩ ∈ r.state.hub.pool.queue worker →
            .job signal ⟨i, value⟩ ∈ w.hub.pool.queue worker) := by
  rcases step_hub made with ⟨hl, is, step⟩ | ⟨none, hub, silent, -⟩
  · have told : ∀ loan, loansOf i loan [⟨w, l, r⟩] = Hub.loanEventsAt i loan ⟨w.hub, hl, r.hub⟩ := fun loan => by
      rw [loansOf, List.filterMap_cons_some (by rw [hubMoment?, is]; rfl)]
      exact List.append_nil _
    obtain ⟨returned, used⟩ := Hub.disclosed_at arises step there
    refine ⟨fun untold mem => ?_, fun untold => used fun loan => told loan ▸ untold loan⟩
    have zero := returned fun loan => told loan ▸ untold loan
    exact List.countP_eq_zero.1 zero _ mem (by simp [HubEffect.isReleased])
  · rw [hub, silent]
    exact ⟨fun _ => List.not_mem_nil, fun _ => ⟨rfl, fun _ _ _ => id⟩⟩

/-- A payload on loan can be given back whatever its decoder makes of it. -/
theorem returns_of_out (there : w.hub.feeds[i]? = some f) :
    (f.loanStage .pull = .out → ∀ outcome, ∃ r, w.step (.move (.advance i (.decoded outcome))) = some r ∧
      .released i ∈ r.effects) ∧
    ∀ number, f.loanStage (.push number) = .out → ∀ outcome, ∃ r,
      w.step (.move (.advance i (.pushDecoded number outcome))) = some r ∧ .released i ∈ r.effects := by
  have returns : ∀ {move : FeedMove V} {fr : Feed.Result V H R}, f.step (.advance move) = some fr →
      fr.effects.countP (·.isReleased) = 1 →
      ∃ r, w.step (.move (.advance i move)) = some r ∧ .released i ∈ r.effects := by
    intro move fr made once
    refine ⟨_, onHub_of_step (Hub.Serves.advance.step there made), ?_⟩
    have some : 0 < (w.hub.afterFeed i fr).effects.countP (·.isReleased i) := by
      rw [Hub.released_afterFeed, if_pos rfl, once]
      exact Nat.one_pos
    obtain ⟨e, mem, released⟩ := List.countP_pos_iff.1 some
    cases e with
    | released j =>
      obtain rfl : j = i := of_decide_eq_true released
      exact mem
    | _ => cases released
  constructor
  · intro out outcome
    obtain ⟨fr, made, once⟩ := Feed.returns_of_pull out outcome
    exact returns made once
  · intro number out outcome
    obtain ⟨fr, made, once⟩ := Feed.returns_of_push out outcome
    exact returns made once

/-- A push is carried out whenever it is made. -/
theorem Opens.pushes_of_run (opens : Opens plans tenure start) (lets : ∀ l ∈ labels, tenure.Lets l)
    (ran : run World.step labels start = some (w, es)) (there : w.hub.feeds[i]? = some f) (payload : R) :
    (∃ r, w.step (.push i payload) = some r) ∧ ∃ r, w.step (.announce i payload) = some r := by
  obtain ⟨-, s, known, -⟩ := opens.agrees_of_run lets ran there
  have invocable := opens.invocable_of_run lets ran there known
  have invokes : ∀ {u : World V H R}, u.hub = w.hub →
      (u.sources[i]?).bind (·.provider.callback?) = s.provider.callback? → ∃ r, u.invokeCallback i payload = some r := by
    intro u hub same
    rw [invokeCallback, same]
    cases callback : s.provider.callback with
    | none => exact ⟨_, by rw [LocalProvider.callback?, callback]; rfl⟩
    | some c =>
      have given := invocable.installed c callback
      obtain ⟨fr, made⟩ : ∃ fr, f.invoke c.2 payload = some fr := by
        rw [Feed.invoke, if_neg (not_not.2 given)]
        split <;> exact ⟨_, rfl⟩
      have step := onHub_of_step (w := u) (Hub.Serves.invoke.step (hub ▸ there) made)
      exact ⟨_, by rw [LocalProvider.callback?, callback]; exact step⟩
  constructor
  · refine invokes (u := w.modifyProvider i (·.set payload)) rfl ?_
    rw [sources_modifyProvider known, if_pos rfl]
    rfl
  · exact invokes rfl (by rw [known]; rfl)

/-- **Every lease comes back once, before its values are used.** Whatever a hub's clients, workers and decoders do
over in-process providers, or those who hold a single feed themselves:

* what is done with the payloads of a loan is made of courses, and of one that is as far along as the loan is: each
  payload is given back once, after its decoder has looked at it, before its values are used, and before the
  operation is over that it was lent for;
* a push is lent one payload;
* nothing else is given back, and no cache is changed and nothing posted but in the use of a payload;
* a provider has taken back as many payloads as it has lent, but for those on loan, of which there are none while
  nothing is under way at its feed;
* a payload on loan can be given back whatever its decoder makes of it, and a push can always be made. -/
theorem leases_come_back (opens : Opens plans tenure start) (lets : ∀ l ∈ labels, tenure.Lets l)
    (ran : run World.step labels start = some (w, es)) (there : w.hub.feeds[i]? = some f) :
    let past := trail World.step labels start
    (∀ loan, (f.loanStage loan).Told (loansOf i loan past)) ∧
    (∀ number, (loansOf i (.push number) past).count .lent = if number < f.pushCount then 1 else 0) ∧
    (∀ m ∈ past,
      ((∀ loan, .returned ∉ loansOf i loan [m]) → .released i ∉ m.after.effects) ∧
      ((∀ loan, .used ∉ loansOf i loan [m]) →
        m.after.state.hub.feeds[i]?.map Feed.gates = m.before.hub.feeds[i]?.map Feed.gates ∧
        ∀ worker signal value, .job signal ⟨i, value⟩ ∈ m.after.state.hub.pool.queue worker →
          .job signal ⟨i, value⟩ ∈ m.before.hub.pool.queue worker)) ∧
    (∃ s, w.sources[i]? = some s ∧ s.provider.released + f.onLoan = past.countP (Lends i) ∧
      (f.holder = none → f.pushes = [] → s.provider.released = past.countP (Lends i))) ∧
    ((f.loanStage .pull = .out → ∀ outcome, ∃ r, w.step (.move (.advance i (.decoded outcome))) = some r ∧
        .released i ∈ r.effects) ∧
      (∀ number, f.loanStage (.push number) = .out → ∀ outcome, ∃ r,
        w.step (.move (.advance i (.pushDecoded number outcome))) = some r ∧ .released i ∈ r.effects) ∧
      ∀ payload, (∃ r, w.step (.push i payload) = some r) ∧ ∃ r, w.step (.announce i payload) = some r) := by
  intro past
  have opened : Hub.Arises (plans.map (·.1)) tenure start.hub := .opened opens.eq.1
  have lt : i < start.hub.feeds.length := length_feeds_of_run ran ▸ (List.getElem?_eq_some_iff.1 there).1
  have first := List.getElem?_eq_getElem lt
  obtain ⟨own, book, told⟩ := opens.loanBook_of_run lets ran there
  refine ⟨fun loan => ?_, fun number => ?_, fun m mem => ?_, ?_, (returns_of_out there).1, (returns_of_out there).2,
    opens.pushes_of_run lets ran there⟩
  · rw [told]
    exact book.told loan
  · rw [told]
    exact book.once number
  · obtain ⟨-, ⟨arises, many⟩, made⟩ := of_mem_trail
      (P := fun u => Hub.Arises (plans.map (·.1)) tenure u.hub ∧ i < u.hub.feeds.length)
      (fun l hl _ _ now made => ⟨arises_step now.1 (lets l hl) made, length_feeds_of_run (run_singleton made) ▸ now.2⟩)
      ⟨opened, lt⟩ m mem
    exact disclosed_of_step arises made (List.getElem?_eq_getElem many)
  · obtain ⟨s, known, -⟩ := opens.agrees first
    obtain ⟨plan, -, planned⟩ := opens.eq.1.ofPlan first
    obtain ⟨f', s', there', known', total⟩ := balance_of_run opened lets ran first known (by rw [planned]; exact .nil)
    obtain rfl := Option.some.inj (there.symm.trans there')
    obtain ⟨-, sources⟩ := opens.eq
    rw [sources] at known
    obtain ⟨p, -, rfl⟩ := Option.map_eq_some_iff.1 (List.getElem?_map.symm.trans known)
    have total : s'.provider.released + f.onLoan = past.countP (Lends i) := by
      rw [total, planned]
      exact Nat.zero_add _
    refine ⟨s', known', total, fun free unpushed => ?_⟩
    rw [← total, Feed.onLoan_eq_zero free unpushed, Nat.add_zero]

end World

/-- The lamp's provider says that the lamp went dark. -/
def Lamp.switchOff : List (WorldLabel Value Unit Unit) :=
  [.push 0 (), .move (.advance 0 (.pushDecoded 0 (.ok ⟨[emission false]⟩))), .move (.advance 0 (.enter 0)),
    .move (.advance 0 .write), .move (.advance 0 .look), .move (.advance 0 .post), .move (.advance 0 .settle),
    .move (.advance 0 (.leave 0))]

/-- The lamp's provider lends a payload to whoever subscribes and another one when the lamp goes dark, and has both
back. -/
theorem World.lamp_gives_back :
    ∃ w es s, run World.step (Lamp.registration ++ Lamp.switchOff) Lamp.world = some (w, es) ∧
      w.sources[0]? = some s ∧ s.provider.released = 2 ∧
      LoanStage.rest.Told (loansOf 0 (.push 0) (trail World.step (Lamp.registration ++ Lamp.switchOff) Lamp.world)) ∧
      loansOf 0 (.push 0) (trail World.step (Lamp.registration ++ Lamp.switchOff) Lamp.world) =
        [.lent, .decoded, .returned, .used, .used, .ended] := by
  have start : assemble {} [(Lamp.plan, ())] = .ok Lamp.world := rfl
  obtain ⟨w, es, f, ran, there, free, unpushed, stage, lent, course⟩ : ∃ w es f,
      run World.step (Lamp.registration ++ Lamp.switchOff) Lamp.world = some (w, es) ∧ w.hub.feeds[0]? = some f ∧
      f.holder = none ∧ f.pushes = [] ∧ f.loanStage (.push 0) = .rest ∧
      (trail World.step (Lamp.registration ++ Lamp.switchOff) Lamp.world).countP (Lends 0) = 2 ∧
      loansOf 0 (.push 0) (trail World.step (Lamp.registration ++ Lamp.switchOff) Lamp.world) =
        [.lent, .decoded, .returned, .used, .used, .ended] := ⟨_, _, _, rfl, rfl, rfl, rfl, rfl, rfl, rfl⟩
  obtain ⟨told, -, -, ⟨s, known, -, whole⟩, -⟩ := leases_come_back (.assembled start)
    (by simp [Lamp.registration, Lamp.switchOff, Tenure.Lets, WorldLabel.IsOwn]) ran there
  exact ⟨w, es, s, ran, known, (whole free unpushed).trans lent, stage ▸ told (.push 0), course⟩

end LazyHub
