import LazyHub.Proofs.Hub.Reading
import LazyHub.Proofs.World.Handed

/-!
# What is read after an activation

A feed that is active has written what its decoder makes of the payloads that it was handed, provided that pushes are
made one after another and the decoder makes the same of the same payload (`World.Regular`). So reads find what the
decoder makes of the last one of them. This is the payload that the provider has, unless a push missed the feed while
it was activated and nothing was handed over since (`World.reads_are_up_to_date`): once the feed is active no push misses
it (`World.not_misses_of_active`). A push that does miss it is not made good for (`World.lamp_is_taken_for_dark`).
-/

namespace LazyHub

variable {V H R : Type}

/-- A step that is not about a payload: none is changed, offered or decoded. -/
def WorldLabel.IsCalm : WorldLabel V H R → Prop
  | .push .. | .announce .. | .set .. | .move (.advance _ (.decoded _)) | .move (.advance _ (.pushDecoded ..)) => False
  | _ => True

/-- The callback that a provider has while its feed is active, or about to be, carries the current epoch. -/
theorem Agrees.epoch_eq {tenure : Tenure} {f : Feed V H R} {s : Source R} {installed : Registration × Nat}
    (a : Agrees tenure f s) (live : f.IsLive) (o : f.Orderly) (tidy : f.Tidy)
    (callback : s.provider.callback = some installed) : installed.2 = f.epoch := by
  have agreed := a.callback
  cases at' : f.stage with
  | registered registration =>
    simp only [at', callback, Option.some.injEq] at agreed
    rw [agreed]
  | registering =>
    simp only [at', callback] at agreed
    split at agreed
    · rw [Option.some.inj agreed]
    · cases agreed
  | unregistering registration => exact absurd at' ((live.stage tidy o).2 registration)
  | _ =>
    simp only [at', callback] at agreed
    cases agreed

/-- While a feed is active its provider has a callback. -/
theorem Agrees.isSome_callback {tenure : Tenure} {f : Feed V H R} {s : Source R} (a : Agrees tenure f s) (o : f.Orderly)
    (tidy : f.Tidy) (active : f.registration.isSome) : s.provider.callback.isSome := by
  have agreed := a.callback
  have held := tidy.registration?_stage o
  cases at' : f.stage with
  | registered registration =>
    simp only [at'] at agreed
    rw [agreed]
    rfl
  | _ =>
    rw [← held, at'] at active
    cases active

namespace World

variable [SignalValue V]

/-- **What is asked of a step**: a provider's payload is changed by pushes alone, and none is made before the one before
it has returned; and the decoder of the feed is `decode`, which makes of payloads what the feed accepts. -/
def Regular (i : Nat) (decode : R → List (Emission V)) (m : Moment (World V H R) (WorldLabel V H R) (HubEffect V H)) :
    Prop :=
  match m.label with
  | .set j _ | .announce j _ => j ≠ i
  | .push j _ => j = i → ∀ f, m.before.hub.feeds[i]? = some f → f.pushes = []
  | .move (.advance j move) => j = i → ∀ f, m.before.hub.feeds[i]? = some f → f.DecodesBy decode move
  | _ => True

/-- Where a step is not about a payload nothing is asked of it. -/
theorem regular_of_isCalm {i : Nat} {decode : R → List (Emission V)}
    {m : Moment (World V H R) (WorldLabel V H R) (HubEffect V H)} (calm : m.label.IsCalm) : Regular i decode m := by
  obtain ⟨before, label, after⟩ := m
  cases label with
  | push | set | announce => exact calm.elim
  | move m =>
    cases m with
    | advance j move =>
      cases move with
      | decoded | pushDecoded => exact calm.elim
      | _ => exact fun _ _ _ => trivial
    | _ => trivial
  | _ => trivial

omit [SignalValue V] in
theorem label_of_move {w : World V H R} {l : WorldLabel V H R} {m : HubMove V H} (is : w.hubLabel? l = some (.move m)) :
    l = .move m := by
  cases l with
  | move => exact congrArg WorldLabel.move (HubLabel.move.inj (Option.some.inj is))
  | use | register | set | refuse => cases is
  | query | registered | push | announce =>
    obtain ⟨x, -, eq⟩ := Option.map_eq_some_iff.1 is
    cases eq
  | unregister =>
    simp only [hubLabel?] at is
    split at is <;> cases is

omit [SignalValue V] in
theorem label_of_invoke {w : World V H R} {l : WorldLabel V H R} {i epoch : Nat} {payload : R}
    (is : w.hubLabel? l = some (.invoke i epoch payload)) :
    (l = .push i payload ∨ l = .announce i payload) ∧ (w.sources[i]?).bind (·.provider.callback?) = some epoch := by
  cases l with
  | move | use | register | set | refuse => cases is
  | query | registered =>
    obtain ⟨x, -, eq⟩ := Option.map_eq_some_iff.1 is
    cases eq
  | push =>
    obtain ⟨x, callback, eq⟩ := Option.map_eq_some_iff.1 is
    cases eq
    exact ⟨.inl rfl, callback⟩
  | announce =>
    obtain ⟨x, callback, eq⟩ := Option.map_eq_some_iff.1 is
    cases eq
    exact ⟨.inr rfl, callback⟩
  | unregister =>
    simp only [hubLabel?] at is
    split at is <;> cases is

variable {plans : List (FeedPlan V × R)} {tenure : Tenure} {start w v : World V H R} {l : WorldLabel V H R}
  {labels : List (WorldLabel V H R)} {r : Result V H R} {es : List (HubEffect V H)} {i : Nat} {f g : Feed V H R}
  {s : Source R} {past : List (Moment (World V H R) (WorldLabel V H R) (HubEffect V H))}

/-! ### The callback that the provider has -/

/-- A feed and its provider agree when a step is made. -/
def AgreesAt (plans : List (FeedPlan V)) (tenure : Tenure) (i : Nat)
    (m : Moment (World V H R) (WorldLabel V H R) (HubEffect V H)) : Prop :=
  Hub.Arises plans tenure m.before.hub ∧
    ∃ f s, m.before.hub.feeds[i]? = some f ∧ m.before.sources[i]? = some s ∧ Agrees tenure f s

/-- **Where a feed ends up active it has agreed with its provider throughout.** -/
theorem Opens.agrees_of_active (opens : Opens plans tenure start) (lets : ∀ l ∈ labels, tenure.Lets l)
    (ran : run World.step labels start = some (v, es)) (final : v.hub.feeds[i]? = some g) (active : g.registration.isSome) :
    ∀ m ∈ trail World.step labels start, AgreesAt (plans.map (·.1)) tenure i m := by
  intro m mem
  obtain ⟨first, rest, before, after, rfl, ran, onward⟩ := split_of_mem_trail ran mem
  have lt : i < m.before.hub.feeds.length := length_feeds_of_run onward ▸ (List.getElem?_eq_some_iff.1 final).1
  have there := List.getElem?_eq_getElem lt
  obtain ⟨arises, s, known, outcome⟩ := opens.agrees_of_run (fun l hl => lets l (List.mem_append_left _ hl)) ran there
  refine ⟨arises, _, s, there, known, ?_⟩
  rcases outcome with ⟨-, agrees⟩ | ⟨-, installed, orphaned⟩
  · exact agrees
  · -- a feed whose callback is orphaned is never active again
    have lets' : ∀ l ∈ rest, tenure.Lets l := fun l hl => lets l (List.mem_append_right _ hl)
    obtain ⟨⟨g', s', final', -, orphaned⟩, -⟩ := orphaned_of_run arises lets' onward there known orphaned
    obtain rfl := Option.some.inj (final.symm.trans final')
    obtain ⟨ranHub, -, allowed⟩ := run_hub onward
    obtain ⟨orderly, tidy, -⟩ := (arises.run (allowed tenure lets') ranHub).kept final
    rw [orphaned.registration_eq orderly tidy] at active
    cases active

/-- **No push misses an active feed** while its activation lasts. -/
theorem not_misses_of_active {plans : List (FeedPlan V)} {tenure : Tenure} (arises : Hub.Arises plans tenure w.hub)
    (lets : ∀ l ∈ labels, tenure.Lets l) (ran : run World.step labels w = some (v, es)) (there : w.hub.feeds[i]? = some f)
    (final : v.hub.feeds[i]? = some g) (active : f.registration.isSome) (active' : g.registration.isSome)
    (same : g.epoch = f.epoch) (agreed : ∀ m ∈ trail World.step labels w, AgreesAt plans tenure i m) :
    ∀ m ∈ trail World.step labels w, ¬ Misses i m := by
  rintro m mem ⟨-, vacant, -⟩
  obtain ⟨arises', k, s, here, known, agrees⟩ := agreed m mem
  obtain ⟨first, rest, before, after, rfl, ranFirst, ranRest⟩ := split_of_mem_trail ran mem
  obtain ⟨ranHub, -, allowed⟩ := run_hub ranFirst
  obtain ⟨ranHub', -, allowed'⟩ := run_hub ranRest
  obtain ⟨own, k', fes, here', ranFeed, -⟩ :=
    arises.mirrors (allowed tenure fun l hl => lets l (List.mem_append_left _ hl)) ranHub there
  obtain ⟨own', g', fes', final', ranFeed', -⟩ :=
    arises'.mirrors (allowed' tenure fun l hl => lets l (List.mem_append_right _ hl)) ranHub' here
  obtain rfl := Option.some.inj (here.symm.trans here')
  obtain rfl := Option.some.inj (final.symm.trans final')
  have same' : k.epoch = f.epoch := Nat.le_antisymm (same ▸ Feed.epoch_le_of_run ranFeed') (Feed.epoch_le_of_run ranFeed)
  have live : k.IsLive := Feed.live_of_run ranFeed' (.inr (Feed.standing_isSome.2 (.inl active'))) (same.trans same'.symm)
  obtain ⟨orderly, tidy, -⟩ := arises'.kept here
  have has := agrees.isSome_callback orderly tidy (Feed.active_of_run ranFeed active live same')
  rw [known, Option.bind_some, LocalProvider.callback?, Option.map_eq_none_iff] at vacant
  rw [vacant] at has
  cases has

/-! ### From the world to the feed -/

theorem Regular.spares {decode : R → List (Emission V)} {m : Moment (World V H R) (WorldLabel V H R) (HubEffect V H)}
    (regular : Regular i decode m) : m.label.Spares i := by
  unfold Regular at regular
  unfold WorldLabel.Spares
  split at regular <;> simp_all

/-- A step that is regular is regular for the feed, as long as the feed is active or about to be. -/
theorem Regular.feed {decode : R → List (Emission V)} {m : Moment (World V H R) (WorldLabel V H R) (HubEffect V H)}
    (regular : Regular i decode m) {hl : HubLabel V H R} (is : m.before.hubLabel? m.label = some hl) {fl : FeedLabel V H R}
    {k : Hub V H R} (serves : m.before.hub.Serves hl i fl k) {plans : List (FeedPlan V)}
    (arises : Hub.Arises plans .hub m.before.hub) (there : m.before.hub.feeds[i]? = some f)
    (known : m.before.sources[i]? = some s) (agrees : Agrees .hub f s) (live : f.IsLive) : f.Regular decode fl := by
  obtain ⟨orderly, tidy, -⟩ := arises.kept there
  cases fl with
  | advance move =>
    obtain rfl := serves.advance_eq
    rw [Regular, label_of_move is] at regular
    exact regular rfl f there
  | invoke epoch payload =>
    obtain rfl := (Hub.Makes.served serves (f := f)).invoke rfl
    obtain ⟨label, callback⟩ := label_of_invoke is
    have pushed : m.label = .push i payload := label.resolve_right fun announced => by
      rw [Regular, announced] at regular
      exact regular rfl
    rw [Regular, pushed] at regular
    obtain ⟨installed, known', rfl⟩ : ∃ installed, s.provider.callback = some installed ∧ installed.2 = epoch := by
      simpa [known, LocalProvider.callback?] using callback
    refine ⟨agrees.epoch_eq live orderly tidy known', regular rfl f there, ?_⟩
    rcases arises.cases with ⟨-, settings, reachable⟩ | ⟨other, -⟩
    · have handled := live.handled orderly (reachable.sound.owns.owned f (List.mem_of_getElem? there))
      exact fun unowned => handled (Nat.add_eq_zero_iff.1 unowned).1
    · cases other
  | _ => trivial

/-- What a feed goes through in a regular run is regular for it, as long as it is active or about to be. -/
theorem regular_of_mirrors {decode : R → List (Emission V)} {plans : List (FeedPlan V)}
    (agreed : ∀ m ∈ past, AgreesAt plans .hub i m) (regular : ∀ m ∈ past, Regular i decode m) {own : List (Moment (Feed V H R) (FeedLabel V H R) (FeedEffect V))}
    (mirrors : Hub.Mirrors i (past.filterMap hubMoment?) own) :
    ∀ m ∈ own, m.before.IsLive → m.before.Regular decode m.label := by
  intro n mem live
  rcases mirrors.served_of_own mem with dropped | ⟨hm, among, k, serves, there⟩
  · rw [dropped]
    trivial
  · obtain ⟨m, mem, is⟩ := List.mem_filterMap.1 among
    obtain ⟨hl, label, rfl⟩ := Option.map_eq_some_iff.1 is
    obtain ⟨arises, f, s, there', known, agrees⟩ := agreed m mem
    obtain rfl := Option.some.inj (there.symm.trans there')
    exact (regular m mem).feed label serves arises there known agrees live

/-- A run in which an activation starts is an attempt if the hub brings the activation to its end. -/
theorem Attempt.of_finishes {a : Answer} (ran : run World.step labels w = some (v, es))
    (starts : ∃ hl rest fl h g, w.hubLabels labels = hl :: rest ∧ w.hub.Serves hl i fl h ∧ w.hub.feeds[i]? = some g ∧
      g.Activates fl)
    (answered : ∃ k es, Hub.Finishes i w.hub (w.hubLabels labels) k es a) : Attempt i w labels v es a := by
  obtain ⟨k, es', answered⟩ := answered
  cases answered.run.symm.trans (run_hub ran).1
  exact ⟨ran, starts, answered⟩

/-- **What a feed has been through since an attempt to activate it began.** -/
theorem Attempt.history {plans : List (FeedPlan V)} {u : World V H R} {during after : List (WorldLabel V H R)}
    {es' : List (HubEffect V H)} {a : Answer} (attempt : Attempt i w during u es a)
    (arises : Hub.Arises plans tenure w.hub) (lets : ∀ l ∈ during ++ after, tenure.Lets l)
    (onward : run World.step after u = some (v, es')) (final : v.hub.feeds[i]? = some g) :
    ∃ f fl own fes, w.hub.feeds[i]? = some f ∧ f.Activates fl ∧
      (∀ k, u.hub.feeds[i]? = some k → k.epoch = f.epoch + 1 ∧ (a = .done → k.registration.isSome)) ∧
      run Feed.step (fl :: own) f = some (g, fes) ∧
      Hub.Mirrors i ((trail World.step (during ++ after) w).filterMap hubMoment?) (trail Feed.step (fl :: own) f) := by
  obtain ⟨ran, ⟨hl, rest, fl, h, f, begins, serves, there, activates⟩, answered⟩ := attempt
  obtain ⟨-, same, allowed⟩ := run_hub ran
  obtain ⟨ranHub, same', allowed'⟩ := run_hub onward
  have allowed := allowed tenure fun l hl => lets l (List.mem_append_left _ hl)
  have allowed' := allowed' tenure fun l hl => lets l (List.mem_append_right _ hl)
  rw [begins] at answered same allowed
  obtain ⟨own, k, fes, there', fin, mirrors⟩ := answered.mirrors_of_serves arises allowed there serves
  obtain ⟨own', g', fes', final', ran', mirrors'⟩ := (arises.run allowed answered.run).mirrors allowed' ranHub there'
  obtain rfl := Option.some.inj (final.symm.trans final')
  obtain ⟨orderly, tidy, past, books⟩ := arises.kept there
  refine ⟨f, fl, own ++ own', fes ++ fes', there, activates, fun k' hk => ?_, ?_, ?_⟩
  · obtain rfl := Option.some.inj (there'.symm.trans hk)
    exact activates.outcome orderly tidy books fin
  · exact run_append.2 ⟨k, fes, fes', fin.run, ran', rfl⟩
  · rw [trail_append ran, List.filterMap_append, ← same, ← same', ← List.cons_append, trail_append fin.run]
    exact mirrors.append mirrors'

/-- **What a feed has written since an attempt to activate it began** that was done, if its activation lasts and every
push has returned. -/
theorem Attempt.written {decode : R → List (Emission V)} {plans : List (FeedPlan V)} {u : World V H R}
    {during after : List (WorldLabel V H R)} {es' : List (HubEffect V H)} {a : Answer} (attempt : Attempt i w during u es a)
    (arises : Hub.Arises plans .hub w.hub) (own : ∀ l ∈ during ++ after, l.IsOwn)
    (onward : run World.step after u = some (v, es')) (activated : u.hub.feeds[i]? = some f) (final : v.hub.feeds[i]? = some g)
    (active : g.registration.isSome) (same : g.epoch = f.epoch) (returned : g.pushes = [])
    (agreed : ∀ m ∈ trail World.step (during ++ after) w, AgreesAt plans .hub i m)
    (regular : ∀ m ∈ trail World.step (during ++ after) w, Regular i decode m) :
    ∃ f₀ ownFeed fes, w.hub.feeds[i]? = some f₀ ∧ ¬ f₀.IsLive ∧ run Feed.step ownFeed f₀ = some (g, fes) ∧
      handed i (trail World.step (during ++ after) w) ≠ [] ∧
      gather Feed.wrote (trail Feed.step ownFeed f₀) =
        f₀.yetToPush ++ (handed i (trail World.step (during ++ after) w)).flatMap decode := by
  obtain ⟨f₀, fl, ownFeed, fes, there, activates, ended, ran, mirrors⟩ := attempt.history arises own onward final
  obtain ⟨orderly, tidy, past, books⟩ := arises.kept there
  have stands : g.standing.isSome := Feed.standing_isSome.2 (.inl active)
  obtain ⟨orderly', activation, follows⟩ := activates.follows_of_run orderly tidy books ran
    (regular_of_mirrors agreed regular mirrors) (.inr stands) (same.trans (ended f activated).1)
  have written := follows.written activation orderly' stands returned
  rw [← handed_eq mirrors] at written
  exact ⟨f₀, fl :: ownFeed, fes, there, activates.not_isLive, ran, written⟩

/-! ### What is read -/

/-- **Reads find what the decoder makes of a payload**: of each signal that the feed declares the last value in it, or
one that counts as the same, and nobody is asked for it. -/
def Shows (plan : FeedPlan V) (decode : R → List (Emission V)) (i : Nat) (g : Feed V H R) (h : Hub V H R) (payload : R) :
    Prop :=
  ∀ d ∈ plan.signals, ∃ x y, (valuesFor d.key.id (decode payload)).getLast? = some y ∧ (x = y ∨ SignalValue.same x y) ∧
    Hub.Finds i g d.key h x

/-- Where a feed is active, reads find the last value that was written for a signal. -/
theorem Shows.of_settles {settings : Settings} {plans : List (FeedPlan V)} {plan : FeedPlan V}
    {decode : R → List (Emission V)} {h k : Hub V H R} (before : Hub.Reachable settings plans h)
    (reachable : Hub.Reachable settings plans k) (planned : plans[i]? = some plan) (there : k.feeds[i]? = some g)
    (active : g.registration.isSome) {first : List (Emission V)} {payload : R}
    (settles : Hub.Settles i h k (first ++ decode payload))
    (complete : ∀ d ∈ plan.signals, valuesFor d.key.id (decode payload) ≠ []) : Shows plan decode i g k payload := by
  intro d declares
  obtain ⟨f, there', known, -⟩ := before.route_of_declared planned declares rfl
  obtain ⟨old, cached⟩ := before.exists_cached? planned declares rfl
  obtain ⟨g', hg, -, routes⟩ := reachable.route_of_declared planned declares rfl
  obtain rfl := Option.some.inj (there.symm.trans hg)
  rw [if_pos rfl] at routes
  obtain ⟨values, y, last⟩ := (List.eq_nil_or_concat' (valuesFor d.key.id (decode payload))).resolve_left (complete d declares)
  have now := settles f d.key.id there' known
  rw [cached, Option.map_some, valuesFor_append, last, ← List.append_assoc] at now
  exact ⟨_, y, by rw [last, List.getLast?_concat], settled_concat _ _ _, reachable.finds there routes (fun _ => active) now⟩

/-- **An activation loses no push but those that miss the feed.** Somebody's subscription activates the feed, while
pushes are made at any time. Then the feed is active, and as long as this activation lasts, whenever every push has
returned:

* reads find what the decoder makes of the payload that the provider handed over last;
* this is the payload that the provider has, unless a push missed the feed in the course of the activation, and nothing
  was handed over since. -/
theorem reads_are_up_to_date {settings : Settings} {u : World V H R} {before during : List (WorldLabel V H R)}
    {es₀ es₁ : List (HubEffect V H)} {plan : FeedPlan V} {first : R} (decode : R → List (Emission V))
    (assembled : assemble settings plans = .ok start) (planned : plans[i]? = some (plan, first))
    (own : ∀ l ∈ before ++ during, l.IsOwn) (ran : run World.step before start = some (w, es₀))
    (attempt : Attempt i w during u es₁ .done) :
    ∃ f, u.hub.feeds[i]? = some f ∧ f.registration.isSome ∧
      ∀ after v es₂ g, (∀ l ∈ after, l.IsOwn) → run World.step after u = some (v, es₂) → v.hub.feeds[i]? = some g →
        g.registration.isSome → g.epoch = f.epoch → g.pushes = [] →
        (∀ m ∈ trail World.step (during ++ after) w, Regular i decode m) →
        (∀ payload ∈ handed i (trail World.step (during ++ after) w), ∀ d ∈ plan.signals,
          valuesFor d.key.id (decode payload) ≠ []) →
        ∃ s payload, v.sources[i]? = some s ∧ (handed i (trail World.step (during ++ after) w)).getLast? = some payload ∧
          Shows plan decode i g v.hub payload ∧
          (¬ Missed i (trail World.step during w) ∨ handed i (trail World.step after u) ≠ [] →
            payload = s.provider.current) := by
  have opens : Opens plans .hub start := .assembled assembled
  obtain ⟨ownBefore, ownDuring⟩ := List.forall_mem_append.1 own
  obtain ⟨-, -, -, -, f₀, -, -, there, -⟩ := attempt.starts
  obtain ⟨arises, s₀, known, -⟩ := opens.agrees_of_run ownBefore ran there
  have lt : i < u.hub.feeds.length := length_feeds_of_run attempt.ran ▸ (List.getElem?_eq_some_iff.1 there).1
  obtain ⟨f, activated⟩ : ∃ f, u.hub.feeds[i]? = some f := ⟨_, List.getElem?_eq_getElem lt⟩
  have began : f.registration.isSome := by
    obtain ⟨_, _, _, _, _, _, ended, -⟩ :=
      attempt.history arises (show ∀ l ∈ during ++ [], l.IsOwn by rwa [List.append_nil]) (run_nil u) activated
    exact (ended f activated).2 rfl
  refine ⟨f, activated, began, ?_⟩
  intro after v es₂ g ownAfter onward final active same returned regular complete
  have ownSince : ∀ l ∈ during ++ after, l.IsOwn := List.forall_mem_append.2 ⟨ownDuring, ownAfter⟩
  have ranSince : run World.step (during ++ after) w = some (v, es₁ ++ es₂) := run_append.2 ⟨u, es₁, es₂, attempt.ran, onward, rfl⟩
  have ranAll := run_append.2 ⟨w, es₀, _, ran, ranSince, rfl⟩
  have reached : ∀ l ∈ before ++ (during ++ after), l.IsOwn := List.forall_mem_append.2 ⟨ownBefore, ownSince⟩
  have agreed := opens.agrees_of_active reached ranAll final active
  rw [trail_append ran] at agreed
  have agreed : ∀ m ∈ trail World.step (during ++ after) w, AgreesAt (plans.map (·.1)) .hub i m := fun m mem =>
    agreed m (List.mem_append_right _ mem)
  obtain ⟨f₁, ownFeed, fes, there', resting, ranFeed, heard, written⟩ :=
    attempt.written arises ownSince onward activated final active same returned agreed regular
  obtain rfl := Option.some.inj (there.symm.trans there')
  obtain ⟨told, payload, whole⟩ := (List.eq_nil_or_concat' _).resolve_left heard
  have last : (handed i (trail World.step (during ++ after) w)).getLast? = some payload := by rw [whole, List.getLast?_concat]
  have dormant : UpToDate i [] f₀ s₀ := fun live => absurd live resting
  obtain ⟨g', s, final', known', upToDate⟩ := upToDate_of_run arises ownSince ranSince there known dormant fun l mem => by
      rw [← map_label_trail ranSince] at mem
      obtain ⟨m, among, rfl⟩ := List.mem_map.1 mem
      exact (regular m among).spares
  obtain rfl := Option.some.inj (final.symm.trans final')
  have opened := reachable_of_run assembled ownBefore ran
  have answered := reachable_of_run assembled own (run_append.2 ⟨w, es₀, es₁, ran, attempt.ran, rfl⟩)
  have reachable := reachable_of_run assembled reached ranAll
  refine ⟨s, payload, known', last, ?_, fun current => ?_⟩
  · have settles := opened.settles reachable there final ranFeed
    rw [written, whole, List.flatMap_append, List.flatMap_singleton, ← List.append_assoc] at settles
    exact .of_settles opened reachable (by rw [List.getElem?_map, planned]; rfl) final active settles
      (complete payload (whole ▸ List.mem_append_right _ (List.mem_singleton_self _)))
  · refine (upToDate.current (reachable.orderly final) active last).resolve_right fun missed => ?_
    rw [List.nil_append, trail_append attempt.ran] at missed
    rw [trail_append attempt.ran] at agreed
    obtain ⟨missed, silent⟩ := missed.of_append <| not_misses_of_active answered.arises ownAfter onward activated final
      began active same fun m mem => agreed m (List.mem_append_right _ mem)
    exact current.elim (absurd missed) (absurd silent)

end World

/-! ### The lamp -/

namespace Lamp

/-- What is made of a payload that says whether the lamp shines. -/
def decode (shines : Bool) : List (Emission Value) := [emission shines]

/-- Somebody subscribes to the lamp, which is dark when the provider answers the query. -/
def activation (meanwhile : List (WorldLabel Value Unit Bool)) : List (WorldLabel Value Unit Bool) :=
  [.move (.subscribe ⟨1⟩), .query 0] ++ meanwhile ++
    [.move (.advance 0 (.decoded (.ok ⟨decode false⟩))), .move (.advance 0 .seed), .move (.advance 0 .write),
      .move (.advance 0 .settle), .register 0, .registered 0]

/-- The lamp's provider says that the lamp shines. -/
def switchOn : List (WorldLabel Value Unit Bool) :=
  [.push 0 true, .move (.advance 0 (.pushDecoded 0 (.ok ⟨decode true⟩))), .move (.advance 0 (.enter 0)),
    .move (.advance 0 .write), .move (.advance 0 .look), .move (.advance 0 .post), .move (.advance 0 .settle),
    .move (.advance 0 (.leave 0))]

theorem complete (shines : Bool) : ∀ d ∈ plan.signals, valuesFor d.key.id (decode shines) ≠ [] := by
  intro d declares
  cases List.mem_singleton.1 declares
  exact List.cons_ne_nil _ _

theorem eq_of_same {x : Value} {shines : Bool} (same : SignalValue.same x (.truth shines)) : x = .truth shines := by
  cases x <;> simp_all [SignalValue.same, Value.same]

/-- The hub brings the activation to its end. -/
theorem finishes :
    ∃ k es, Hub.Finishes 0
      { feeds := [.ofPlan plan], pool := .ofSize 1 true, nextToken := 2, requests := [⟨⟨1⟩, key, ()⟩] }
      [.move (.subscribe ⟨1⟩), .hear 0 (.queried (.ok false)), .move (.advance 0 (.decoded (.ok ⟨decode false⟩))),
        .move (.advance 0 .seed), .move (.advance 0 .write), .move (.advance 0 .settle),
        .hear 0 (.registered (.ok ⟨1⟩))] k es .done :=
  ⟨_, _, .more rfl rfl (Option.some_ne_none _) (.more rfl rfl (Option.some_ne_none _)
    (.more rfl rfl (Option.some_ne_none _) (.more rfl rfl (Option.some_ne_none _) (.more rfl rfl (Option.some_ne_none _)
    (.more rfl rfl (Option.some_ne_none _) (.last rfl .hear rfl rfl rfl))))))⟩

end Lamp

namespace World

/-- If the lamp begins to shine after somebody has subscribed, reads say so. -/
theorem lamp_is_known_to_shine :
    ∃ start w u v : World Value Unit Bool, ∃ e₀ e₁ e₂ g s, assemble {} [(Lamp.plan, false)] = .ok start ∧
      run World.step [.move (.draw Lamp.key ())] start = some (w, e₀) ∧
      Attempt 0 w (Lamp.activation []) u e₁ .done ∧ run World.step Lamp.switchOn u = some (v, e₂) ∧
      v.hub.feeds[0]? = some g ∧ v.sources[0]? = some s ∧ s.provider.current = true ∧
      Hub.Finds 0 g Lamp.key v.hub (.truth true) := by
  obtain ⟨start, w, u, v, e₀, e₁, e₂, f, g, assembled, ran, attempt, onward, there, final, active, same, returned, told,
      later, regular⟩ :
      ∃ start w u v : World Value Unit Bool, ∃ e₀ e₁ e₂ f g, assemble {} [(Lamp.plan, false)] = .ok start ∧
        run World.step [.move (.draw Lamp.key ())] start = some (w, e₀) ∧
        Attempt 0 w (Lamp.activation []) u e₁ .done ∧ run World.step Lamp.switchOn u = some (v, e₂) ∧
        u.hub.feeds[0]? = some f ∧ v.hub.feeds[0]? = some g ∧ g.registration.isSome ∧ g.epoch = f.epoch ∧
        g.pushes = [] ∧ handed 0 (trail World.step (Lamp.activation [] ++ Lamp.switchOn) w) = [false, true] ∧
        handed 0 (trail World.step Lamp.switchOn u) = [true] ∧
        ∀ m ∈ trail World.step (Lamp.activation [] ++ Lamp.switchOn) w, Regular 0 Lamp.decode m := by
    refine ⟨_, _, _, _, _, _, _, _, _, rfl, rfl,
      .of_finishes rfl ⟨_, _, _, _, _, rfl, .subscribe rfl rfl rfl, rfl, rfl, rfl, .inr ⟨_, _, _, rfl⟩⟩ Lamp.finishes,
      rfl, rfl, rfl, rfl, rfl, rfl, rfl, rfl, ?_⟩
    have calm : ∀ {m : Moment (World Value Unit Bool) (WorldLabel Value Unit Bool) (HubEffect Value Unit)},
        m.label.IsCalm → Regular 0 Lamp.decode m := regular_of_isCalm
    refine List.forall_mem_cons.2 ⟨calm trivial, List.forall_mem_cons.2 ⟨calm trivial, List.forall_mem_cons.2 ⟨?decoded,
      List.forall_mem_cons.2 ⟨calm trivial, List.forall_mem_cons.2 ⟨calm trivial, List.forall_mem_cons.2 ⟨calm trivial,
      List.forall_mem_cons.2 ⟨calm trivial, List.forall_mem_cons.2 ⟨calm trivial, List.forall_mem_cons.2 ⟨?push,
      List.forall_mem_cons.2 ⟨?pushDecoded, List.forall_mem_cons.2 ⟨calm trivial, List.forall_mem_cons.2 ⟨calm trivial,
      List.forall_mem_cons.2 ⟨calm trivial, List.forall_mem_cons.2 ⟨calm trivial, List.forall_mem_cons.2 ⟨calm trivial,
      List.forall_mem_cons.2 ⟨calm trivial, List.forall_mem_nil _⟩⟩⟩⟩⟩⟩⟩⟩⟩⟩⟩⟩⟩⟩⟩⟩
    case decoded =>
      rintro - f there purpose payload held
      cases there
      cases held
      rfl
    case push =>
      rintro - f there
      cases there
      rfl
    case pushDecoded =>
      rintro - f there epoch payload known
      cases there
      cases known
      rfl
  obtain ⟨f', there', -, reads⟩ := reads_are_up_to_date Lamp.decode assembled (i := 0) rfl
    (by simp [Lamp.activation, WorldLabel.IsOwn]) ran attempt
  obtain rfl := Option.some.inj (there.symm.trans there')
  obtain ⟨s, payload, known, last, shows, current⟩ := reads Lamp.switchOn v e₂ g (by simp [Lamp.switchOn, WorldLabel.IsOwn])
    onward final active same returned regular fun payload _ => Lamp.complete payload
  obtain rfl : true = payload := by simpa [told] using last
  obtain ⟨x, y, isLast, alike, finds⟩ := shows _ (List.mem_singleton_self _)
  obtain rfl : .truth true = y := Option.some.inj isLast
  obtain rfl : x = .truth true := alike.elim id Lamp.eq_of_same
  exact ⟨start, w, u, v, e₀, e₁, e₂, g, s, assembled, ran, attempt, onward, final, known,
    (current (.inr (by simp [later]))).symm, finds⟩

/-- **A push can be lost for good.** If the lamp begins to shine when the query is answered already and the provider has
no callback yet, the subscription is answered as if nothing were, and reads say that the lamp is dark, although every
push has returned. -/
theorem lamp_is_taken_for_dark :
    ∃ start w u : World Value Unit Bool, ∃ e₀ e₁ f s, assemble {} [(Lamp.plan, false)] = .ok start ∧
      run World.step [.move (.draw Lamp.key ())] start = some (w, e₀) ∧
      Attempt 0 w (Lamp.activation [.push 0 true]) u e₁ .done ∧
      (∀ m ∈ trail World.step (Lamp.activation [.push 0 true]) w, Regular 0 Lamp.decode m) ∧
      (∀ shines, ∀ d ∈ Lamp.plan.signals, valuesFor d.key.id (Lamp.decode shines) ≠ []) ∧
      u.hub.feeds[0]? = some f ∧ f.pushes = [] ∧ u.sources[0]? = some s ∧ s.provider.current = true ∧
      Hub.Reads u.hub Lamp.key [.move (.refresh 0)] u.hub [] (.ok (.truth false)) ∧
      ¬ SignalValue.same (.truth false : Value) (.truth true) := by
  obtain ⟨start, w, u, e₀, e₁, f, s, assembled, ran, attempt, regular, there, returned, known, current, routed, held, free,
      active, cached⟩ :
      ∃ start w u : World Value Unit Bool, ∃ e₀ e₁ f s, assemble {} [(Lamp.plan, false)] = .ok start ∧
        run World.step [.move (.draw Lamp.key ())] start = some (w, e₀) ∧
        Attempt 0 w (Lamp.activation [.push 0 true]) u e₁ .done ∧
        (∀ m ∈ trail World.step (Lamp.activation [.push 0 true]) w, Regular 0 Lamp.decode m) ∧
        u.hub.feeds[0]? = some f ∧ f.pushes = [] ∧ u.sources[0]? = some s ∧ s.provider.current = true ∧
        u.hub.route Lamp.key = .ok 0 ∧ u.hub.life = .held 1 ∧ f.holder = none ∧ f.registration.isSome ∧
        u.hub.cached? Lamp.key.id = some (.truth false) := by
    refine ⟨_, _, _, _, _, _, _, rfl, rfl,
      .of_finishes rfl ⟨_, _, _, _, _, rfl, .subscribe rfl rfl rfl, rfl, rfl, rfl, .inr ⟨_, _, _, rfl⟩⟩ Lamp.finishes,
      ?_, rfl, rfl, rfl, rfl, rfl, rfl, rfl, rfl, rfl⟩
    have calm : ∀ {m : Moment (World Value Unit Bool) (WorldLabel Value Unit Bool) (HubEffect Value Unit)},
        m.label.IsCalm → Regular 0 Lamp.decode m := regular_of_isCalm
    refine List.forall_mem_cons.2 ⟨calm trivial, List.forall_mem_cons.2 ⟨calm trivial, List.forall_mem_cons.2 ⟨?push,
      List.forall_mem_cons.2 ⟨?decoded, List.forall_mem_cons.2 ⟨calm trivial, List.forall_mem_cons.2 ⟨calm trivial,
      List.forall_mem_cons.2 ⟨calm trivial, List.forall_mem_cons.2 ⟨calm trivial, List.forall_mem_cons.2 ⟨calm trivial,
      List.forall_mem_nil _⟩⟩⟩⟩⟩⟩⟩⟩⟩
    case push =>
      rintro - f there
      cases there
      rfl
    case decoded =>
      rintro - f there purpose payload held
      cases there
      cases held
      rfl
  have own : ∀ l ∈ [.move (.draw Lamp.key ())] ++ Lamp.activation [.push 0 true], l.IsOwn := by
    simp [Lamp.activation, WorldLabel.IsOwn]
  have reachable := reachable_of_run assembled own (run_append.2 ⟨w, e₀, e₁, ran, attempt.ran, rfl⟩)
  have finds := reachable.finds there routed (fun _ => active) cached
  exact ⟨start, w, u, e₀, e₁, f, s, assembled, ran, attempt, regular, Lamp.complete, there, returned, known, current,
    finds.answered ⟨1, held⟩ free, by simp [SignalValue.same, Value.same]⟩

end World

end LazyHub
