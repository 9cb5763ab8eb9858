import LazyHub.Proofs.Hub.Subscribing
import LazyHub.Proofs.World.Faith

/-!
# Failed subscriptions leave no trace

`Hub.Subscribes` is a subscription from the call to its answer: it is refused where no feed serves the key with
its type, and otherwise draws its token, waits for the state lock of the key's feed, and goes on from there until
it lets go of it. Anything may happen meanwhile.

If it fails, no step of its own has touched a subscriber, a count, a registration or a queue
(`Hub.SparesListeners`), and what comes of it is what would have come of nothing at all, or of a read, but for
the numbers of tokens and epochs (`Hub.NoTrace`).
-/

namespace LazyHub

variable {V H R : Type}

/-! ### What the steps of a pull leave alone -/

/-- **A step of a feed spares its listeners**: who is subscribed, how many are counted, and the registration are as
before, and nobody is owed anything. -/
structure Feed.SparesListeners (f : Feed V H R) (r : Feed.Result V H R) : Prop where
  /-- The feed is of the same kind. -/
  kind : r.state.kind = f.kind
  /-- The subscribers of every outlet. -/
  listeners : r.state.outlets.map (fun o => (o.key, o.subscribers)) = f.outlets.map fun o => (o.key, o.subscribers)
  /-- The registration. -/
  registration : r.state.registration = f.registration
  /-- The subscriptions that are counted. -/
  count : r.state.subscriptionCount = f.subscriptionCount
  /-- Nobody is owed anything. -/
  unowed : ∀ signal value, .owed signal value ∉ r.effects

/-- A pull whose registration is not accepted spares the listeners of its feed. -/
theorem Feed.Transition.sparesListeners [SignalValue V] {f : Feed V H R} {l : FeedLabel V H R} {r : Feed.Result V H R}
    {s : Section V H R} (t : f.Transition l r) (held : f.holder = some s) (pulls : s.purpose?.isSome)
    (byHolder : f.ByHolder l) (unaccepted : ∀ registration, l ≠ .hear (.registered (.ok registration))) :
    f.SparesListeners r := by
  have busy : f.holder ≠ none := by simp [held]
  cases t with
  | content free | activate free | deactivate free | refresh free | attach free | subscribe free | unknown free
  | detach free | detachLast free | shutdown free | dropLast _ _ free => exact absurd free busy
  | unregistered held' | clear held' | cleared held' | clearedInactive held' | withdraw held' =>
    cases held.symm.trans held'
    cases pulls
  | subscribed | activated => exact absurd rfl (unaccepted _)
  | settlePush writing =>
    obtain ⟨w, writing', pulling⟩ := byHolder
    cases writing.symm.trans writing'
    cases pulling
  | invokeUnowned | invoke | look | post | pushRefused | pushDecoded | pushAccepted | pushStale | leave | retire | clone
  | drop => exact byHolder.elim
  | queryFailed | queried | decodeFailed | decoded | seed | settle | settleRefresh | registerFailed =>
    exact ⟨rfl, rfl, rfl, rfl, by simp⟩
  | @write push e rest writing =>
    have gated : (f.writeGate e).outlets.map (fun o => (o.key, o.subscribers)) =
        f.outlets.map fun o => (o.key, o.subscribers) :=
      map_modifyFirst (fun o => show (o.key, o.subscribers) = _ from rfl) ..
    exact ⟨rfl, gated, rfl, rfl, by simp⟩

namespace Hub

/-- **A step of a hub spares the listeners**: who is subscribed to what, how many are counted, the registrations, and
what is queued and being delivered are as before. The caches may have changed. -/
structure SparesListeners (h k : Hub V H R) : Prop where
  /-- The subscribers of every outlet. -/
  listeners : k.outlets.map (fun x => (x.1, x.2.2.key, x.2.2.subscribers)) =
    h.outlets.map fun x => (x.1, x.2.2.key, x.2.2.subscribers)
  /-- The registrations of the feeds. -/
  registrations : k.feeds.map (·.registration) = h.feeds.map (·.registration)
  /-- The subscriptions that are counted. -/
  counts : k.feeds.map (·.subscriptionCount) = h.feeds.map (·.subscriptionCount)
  /-- The workers and their queues. -/
  pool : k.pool = h.pool

variable {h k v w : Hub V H R} {l : HubLabel V H R} {r : Result V H R} {i n : Nat} {f g : Feed V H R}

theorem LooksLike.sparesListeners (same : LooksLike h k) : SparesListeners h k :=
  ⟨by rw [same.outlets], same.registrations, same.counts, same.pool⟩

/-- The listeners of a hub's outlets are those of its feeds'. -/
theorem listeners_congr
    (same : k.feeds.map (fun f => f.outlets.map fun o => (o.key, o.subscribers)) =
      h.feeds.map fun f => f.outlets.map fun o => (o.key, o.subscribers)) :
    k.outlets.map (fun x => (x.1, x.2.2.key, x.2.2.subscribers)) =
      h.outlets.map fun x => (x.1, x.2.2.key, x.2.2.subscribers) := by
  have numbered : ∀ k : Hub V H R, k.outlets.map (fun x => (x.1, x.2.2.key, x.2.2.subscribers)) =
      (k.feeds.map fun f => f.outlets.map fun o => (o.key, o.subscribers)).zipIdx.flatMap
        fun x => x.1.map fun o => (x.2, o.1, o.2) := by
    intro k
    rw [List.zipIdx_map, List.flatMap_map, outlets, List.map_flatMap]
    simp only [Prod.map_fst, Prod.map_snd, List.map_map]
    rfl
  rw [numbered, numbered, same]

/-- Where a feed's step spares its listeners, the hub's does. -/
theorem sparesListeners_afterFeed (there : h.feeds[i]? = some f) {fr : Feed.Result V H R} (spares : f.SparesListeners fr) :
    SparesListeners h (h.afterFeed i fr).state := by
  have state : (h.afterFeed i fr).state = { h with feeds := h.feeds.set i fr.state } :=
    absorbAll_of_unowed _ _ spares.unowed
  have unchanged : ∀ {α : Type} (what : Feed V H R → α), what fr.state = what f →
      (h.feeds.set i fr.state).map what = h.feeds.map what := fun _ same => map_set_of_same there same
  rw [state]
  exact ⟨listeners_congr (unchanged _ spares.listeners), unchanged _ spares.registration, unchanged _ spares.count, rfl⟩

variable [SignalValue V] {settings : Settings} {plans : List (FeedPlan V)} {key : Key} {handler : H} {failure : HubFailure}
  {labels : List (HubLabel V H R)} {es : List (HubEffect V H)} {s : Section V H R}

/-- A step of a subscription that pulls spares the listeners, unless its registration is accepted. -/
theorem Midway.sparesListeners (mid : Midway settings plans n i h f s) (own : l.IsOwn) (made : h.step l = some r)
    (isOf : IsOf n i ⟨h, l, r⟩)
    (unaccepted : (∀ g, r.state.feeds[i]? = some g → g.holder = none) → r.answer ≠ some .done) :
    SparesListeners h r.state := by
  cases isOf with
  | draws _ next => exact absurd next (Nat.ne_of_gt mid.gone.drawn)
  | enters label => exact absurd label (mid.gone.ne made)
  | @holds f' fl g there awaits serves byHolder =>
    obtain rfl := Option.some.inj (mid.there.symm.trans there)
    have pulled := mid.step own made
    cases pulled with
    | passed unserved => exact absurd serves (unserved fl g)
    | @feed fl' fr serves' step after pulls =>
      obtain ⟨-, rfl, rfl⟩ := serves.same serves'
      subst after
      refine sparesListeners_afterFeed there ?_
      refine (Feed.transition_of_step step).sparesListeners mid.held mid.pulls byHolder ?_
      rintro registration rfl
      cases pulls with
      | aside aside => exact aside
      | fetched isStep | fails isStep => exact isStep
      | accepted free answer =>
        refine unaccepted (fun g there' => ?_) answer
        rw [getElem?_afterFeed there] at there'
        exact Option.some.inj there' ▸ free

/-- **The steps of a subscription that fails spare the listeners.** -/
theorem Finishes.sparesListeners (fin : Finishes i h labels k es (.failed failure)) (own : ∀ l ∈ labels, l.IsOwn)
    (mid : Midway settings plans n i h f s) :
    ∀ m ∈ trail Hub.step labels h, IsOf n i m → SparesListeners m.before m.after.state := by
  generalize answer : Answer.failed failure = a at fin
  induction fin generalizing f s with
  | last made serves there free answered =>
    subst answer
    rw [trail_cons made, trail_nil, List.forall_mem_singleton]
    exact fun isOf => mid.sparesListeners (own _ (List.mem_singleton_self _)) made isOf (by simp [answered])
  | more made there busy onward ih =>
    have own' := own _ List.mem_cons_self
    have rest := fun l hl => own l (List.mem_cons_of_mem _ hl)
    rw [trail_cons made]
    refine List.forall_mem_cons.2 ⟨fun isOf => ?_, ?_⟩
    · exact mid.sparesListeners own' made isOf fun free => absurd (free _ there) busy
    · obtain ⟨s', mid', -⟩ := mid.onward own' made there busy
      exact ih rest mid' answer

/-! ### Subscriptions -/

/-- **A subscription to a key.** It is refused where no feed serves the key with its type. Otherwise it draws its token
and waits until it is let into the key's feed, at `w`; from there it goes on until it lets go of the feed. -/
inductive Subscribes (h : Hub V H R) (key : Key) (handler : H) :
    List (HubLabel V H R) → Hub V H R → Hub V H R → List (HubEffect V H) → Except HubFailure Token → Prop where
  /-- No feed serves the key with its type. -/
  | refused {failure : HubFailure} (unrouted : h.route key = .error failure) :
      Subscribes h key handler [] h h [] (.error failure)
  /-- A feed serves the key. -/
  | routed {i : Nat} {waiting rest : List (HubLabel V H R)} {w k : Hub V H R} {before after : List (HubEffect V H)}
      {a : Answer} (routed : h.route key = .ok i)
      (waited : run Hub.step (.move (.draw key handler) :: waiting) h = some (w, before))
      (patient : .move (.subscribe ⟨h.nextToken⟩) ∉ waiting)
      (fin : Finishes i w (.move (.subscribe ⟨h.nextToken⟩) :: rest) k after a) :
      Subscribes h key handler (.move (.draw key handler) :: waiting ++ .move (.subscribe ⟨h.nextToken⟩) :: rest) w k
        (before ++ after) (a.toExcept.map fun _ => ⟨h.nextToken⟩)

/-- **A subscription that fails leaves no trace.** -/
inductive NoTrace (plans : List (FeedPlan V)) (h : Hub V H R) (key : Key) (handler : H) :
    List (HubLabel V H R) → Hub V H R → Hub V H R → HubFailure → Prop where
  /-- The signal is not declared: nothing has happened. -/
  | unknown (undeclared : key.id ∉ declared plans) : NoTrace plans h key handler [] h h (.unknownSignal key.id)
  /-- The signal is declared with another type: nothing has happened. -/
  | mistyped {i : Nat} {plan : FeedPlan V} {d : Declaration V} (planned : plans[i]? = some plan)
      (declares : d ∈ plan.signals) (named : d.key.id = key.id) (mistyped : d.key.type ≠ key.type) :
      NoTrace plans h key handler [] h h (.typeMismatch key.id key.type)
  /-- The feed could not be activated. -/
  | inactive {i : Nat} {waiting rest calm : List (HubLabel V H R)} {w k u v : Hub V H R} {f : Feed V H R}
      {said : List (HubEffect V H)} {failure : HubFailure}
      -- the feed that serves the key was inactive
      (routed : h.route key = .ok i) (there : w.feeds[i]? = some f) (inactive : f.registration = none)
      (cause : (∃ reason, failure = .queryFailed f.kind reason) ∨ (∃ reason, failure = .decodeFailed f.kind reason) ∨
        ∃ reason, failure = .registerFailed f.kind reason)
      -- its own steps have spared the listeners, and nobody was called but the feed's provider
      (spares : ∀ m ∈ trail Hub.step (.move (.draw key handler) :: waiting ++ .move (.subscribe ⟨h.nextToken⟩) :: rest) h,
        IsOf h.nextToken i m → SparesListeners m.before m.after.state ∧ ∀ e ∈ m.after.effects, e.IsAt i)
      -- while it waited, the others went on as if it had not come
      (own : ∀ l ∈ calm, l.IsOwn) (ran : run Hub.step calm h = some (v, said))
      (waited : Follows h.nextToken i (skip h.nextToken) (fun _ => asIs) (trail Hub.step calm h)
        (trail Hub.step (.move (.draw key handler) :: waiting) h))
      -- from there on it amounts to nothing, or to a read
      (amounts : AmountsTo h.nextToken i key (bumped i f.epoch) v w (.move (.subscribe ⟨h.nextToken⟩) :: rest) u failure)
      -- the hub has come to where that would have brought it, by other numbers, and nobody can tell the difference
      (same : k = u.renumber (skip h.nextToken) (bumped i f.epoch))
      (onward : Indistinguishable (skip h.nextToken) (bumped i f.epoch) u k)
      -- the handler was not called, and never will be
      (uncalled : ∀ {later k' es}, run Hub.step later k = some (k', es) → ∀ m ∈
        trail Hub.step (.move (.draw key handler) :: waiting ++ .move (.subscribe ⟨h.nextToken⟩) :: rest ++ later) h,
        ∀ handler' signal value, .called ⟨h.nextToken⟩ handler' signal value ∉ m.after.effects) :
      NoTrace plans h key handler (.move (.draw key handler) :: waiting ++ .move (.subscribe ⟨h.nextToken⟩) :: rest) w k
        failure

/-- A provider whose callbacks are not invoked keeps faith. -/
theorem keepsFaith_of_uninvoked (uninvoked : ∀ epoch payload, .invoke i epoch payload ∉ labels)
    (ran : LazyHub.run Hub.step labels h = some (k, es)) : KeepsFaith i (trail Hub.step labels h) := by
  rintro before m after failure f eq - - ⟨m', mem, payload, label⟩
  have labelled := congrArg (List.map (·.label)) eq
  rw [map_label_trail ran, List.map_append] at labelled
  refine uninvoked f.epoch payload ?_
  rw [labelled, ← label]
  exact List.mem_append_left _ (List.mem_map_of_mem mem)

/-- A key that is not routed is not declared, or with another type. -/
theorem Reachable.noTrace_of_unrouted (reachable : Reachable settings plans h) (unrouted : h.route key = .error failure) :
    NoTrace plans h key handler [] h h failure := by
  by_cases known : key.id ∈ declared plans
  · obtain ⟨plan, mem, named⟩ := List.mem_flatMap.1 known
    obtain ⟨d, declares, named⟩ := List.mem_map.1 named
    obtain ⟨j, planned⟩ := List.mem_iff_getElem?.1 mem
    obtain ⟨-, -, -, routes⟩ := reachable.route_of_declared planned declares named
    rw [unrouted] at routes
    split at routes
    · cases routes
    · cases routes
      exact .mistyped planned declares named ‹_›
  · cases unrouted.symm.trans (reachable.route_of_undeclared known)
    exact .unknown known

/-- An activation made for a subscription fails by its query, its decoding or its registration. -/
theorem Finishes.cause {l : HubLabel V H R} {token : Token} (fin : Finishes i w (l :: labels) k es (.failed failure))
    (reachable : Reachable settings plans w) (own : ∀ x ∈ l :: labels, x.IsOwn) (there : w.feeds[i]? = some f)
    (free : f.holder = none) (inactive : f.registration = none)
    {u : Hub V H R} (serves : w.Serves l i (.enter (.subscribe key.id token handler)) u) :
    (∃ reason, failure = .queryFailed f.kind reason) ∨ (∃ reason, failure = .decodeFailed f.kind reason) ∨
      ∃ reason, failure = .registerFailed f.kind reason := by
  obtain ⟨orderly, tidy, past, books⟩ := reachable.arises.kept there
  obtain ⟨_, _, _, -, ended, -⟩ := fin.mirrors_of_serves reachable.arises own there serves
  have attempted := Feed.attempted_of_finishes orderly tidy books ⟨free, inactive, .inr ⟨_, _, _, rfl⟩⟩ ended
  generalize answer : Answer.failed failure = a at attempted
  cases attempted with
  | queryFailed =>
    cases answer
    exact .inl ⟨_, rfl⟩
  | decodeFailed =>
    cases answer
    exact .inr (.inl ⟨_, rfl⟩)
  | registerFailed =>
    cases answer
    exact .inr (.inr ⟨_, rfl⟩)
  | activated => cases answer

/-- **A subscription enters an inactive feed** where it is let in, if the past of the feed is fenced off. -/
theorem Waits.exists_enters {heard : Nat → Prop} (waits : w.Waits n key handler) (reachable : Reachable settings plans w)
    (calm : Reachable settings plans v) (same : w.asIf n i id id = v.renumber (skip n) fun _ => asIs)
    (later : n ≤ v.nextToken) (routes : w.feedOf? key.id = some i) (there : w.feeds[i]? = some f)
    (inactive : f.registration = none) (fenced : f.Fenced heard) (made : w.step (.move (.subscribe ⟨n⟩)) = some r) :
    Enters settings plans n i key handler v w f ∧
      ∃ g, w.Serves (.move (.subscribe ⟨n⟩)) i (.enter (.subscribe key.id ⟨n⟩ handler)) g := by
  obtain ⟨fr, step, rfl, serves⟩ := waits.enters routes there made
  cases Feed.transition_of_step step with
  | content _ _ content => exact content.elim
  | attach _ _ _ active =>
    rw [inactive] at active
    cases active
  | subscribe free kept =>
    have past := fenced.past (by simp [Feed.standing, free, inactive])
    exact ⟨⟨reachable, calm, same, later, waits, there, past, free, inactive, kept, made⟩, _, serves⟩

section Subscribes

variable {start : Hub V H R} {past : List (HubLabel V H R)} {before : List (HubEffect V H)}

/-- What a subscription amounts to goes on from where the hub would have come to. -/
theorem AmountsTo.continues {δ : ℕ → ℕ ↪o ℕ} {steps : List (HubLabel V H R)} {u : Hub V H R}
    (amounts : AmountsTo n i key δ v w steps u failure) (continues : Continues (skip n) δ v) : Continues (skip n) δ u := by
  cases amounts with
  | nothing _ _ ran => exact continues.of_run ran
  | @read _ _ _ _ _ _ _ _ _ _ value _ _ reads _ _ _ ran =>
    generalize Except.ok value = result at reads
    cases reads with
    | refused => exact continues.of_run ran
    | routed _ read => exact (continues.of_run read.run).of_run ran

omit [SignalValue V] in
theorem uncalled_of_beside {δ : ℕ → ℕ ↪o ℕ} {past past' : List (Moment (Hub V H R) (HubLabel V H R) (HubEffect V H))}
    (beside : List.Forall₂ (StandsBeside n i (skip n) δ) past past') {handler : H} {signal : SignalId} {value : V} :
    ∀ m ∈ past', .called ⟨n⟩ handler signal value ∉ m.after.effects := by
  induction beside with
  | nil => simp
  | cons first _ ih => exact List.forall_mem_cons.2 ⟨first.uncalled, ih⟩

omit [SignalValue V] in
theorem Retells.uncalled {δ : ℕ → ℕ ↪o ℕ} {past past' : List (Moment (Hub V H R) (HubLabel V H R) (HubEffect V H))}
    (retells : Retells (skip n) δ past past') {handler : H} {signal : SignalId} {value : V} :
    ∀ m ∈ past', .called ⟨n⟩ handler signal value ∉ m.after.effects :=
  uncalled_of_beside (i := 0) (retells.imp fun _ _ told => .told told)

/-- Nobody is called under the token of a subscription that fails. -/
theorem AmountsTo.uncalled {δ : ℕ → ℕ ↪o ℕ} {steps : List (HubLabel V H R)} {u : Hub V H R}
    (amounts : AmountsTo n i key δ v w steps u failure) {handler : H} {signal : SignalId} {value : V} :
    ∀ m ∈ trail Hub.step steps w, .called ⟨n⟩ handler signal value ∉ m.after.effects := by
  cases amounts with
  | nothing _ _ _ follows => exact follows.uncalled
  | read _ _ pulls beside _ _ follows =>
    rw [trail_append pulls]
    exact List.forall_mem_append.2 ⟨uncalled_of_beside beside, follows.uncalled⟩

/-- **What a subscription amounts to that fails** in an inactive feed, from where it is let in. -/
theorem Enters.exists_amounts (e : Enters settings plans n i key handler v w f) (opens : Opens plans .hub start)
    (own : ∀ l ∈ past ++ .move (.subscribe ⟨n⟩) :: labels, l.IsOwn) (ran : run Hub.step past start = some (w, before))
    (faith : KeepsFaith i (trail Hub.step (past ++ .move (.subscribe ⟨n⟩) :: labels) start))
    (fin : Finishes i w (.move (.subscribe ⟨n⟩) :: labels) k es (.failed failure)) (routes : v.route key = .ok i) :
    ∃ u, AmountsTo n i key (bumped i f.epoch) v w (.move (.subscribe ⟨n⟩) :: labels) u failure ∧
      k = u.renumber (skip n) (bumped i f.epoch) := by
  by_cases isOfFetch : failure.IsOfFetch
  · exact e.amountsToNothing fin (fun l mem => own l (List.mem_append_right _ (List.mem_cons_of_mem _ mem))) isOfFetch
  · obtain ⟨plan, d, planned, declares, named, -⟩ := e.calm.declares_of_route routes
    exact e.amountsToRead opens own ran faith fin isOfFetch routes
      fun u reachable => reachable.exists_cached? planned declares named

omit [SignalValue V] in
/-- Where a history follows another, the steps of its own do not show. -/
theorem Follows.unseen {τ : ℕ ↪o ℕ} {δ : ℕ → ℕ ↪o ℕ} {past past' : List (Moment (Hub V H R) (HubLabel V H R) (HubEffect V H))}
    (follows : Follows n i τ δ past past') :
    ∀ m ∈ past', IsOf n i m → SparesListeners m.before m.after.state ∧ ∀ e ∈ m.after.effects, e.IsAt i := by
  induction follows with
  | nil => simp
  | own _ same local' _ ih => exact List.forall_mem_cons.2 ⟨fun _ => ⟨same.sparesListeners, local'⟩, ih⟩
  | told other _ _ ih => exact List.forall_mem_cons.2 ⟨fun isOf => absurd isOf other, ih⟩

/-- The steps of a subscription that fails in an inactive feed spare the listeners, from where it is let in. -/
theorem Enters.unseen (e : Enters settings plans n i key handler v w f) (own : ∀ l ∈ labels, l.IsOwn)
    (fin : Finishes i w (.move (.subscribe ⟨n⟩) :: labels) k es (.failed failure)) :
    ∀ m ∈ trail Hub.step (.move (.subscribe ⟨n⟩) :: labels) w, IsOf n i m →
      SparesListeners m.before m.after.state ∧ ∀ e ∈ m.after.effects, e.IsAt i := by
  obtain ⟨es', onward⟩ := e.onward fin
  have mid := e.midway
  rw [trail_cons e.made]
  refine List.forall_mem_cons.2 ⟨fun _ => ⟨(looksLike_entered e.there).sparesListeners, ?_⟩, fun m mem isOf => ⟨?_, ?_⟩⟩
  · exact List.forall_mem_singleton.2 rfl
  · exact onward.sparesListeners own mid m mem isOf
  · exact mid.gone.isAt m mem isOf

/-- A subscription to a key that an active feed serves is let in and answered at once, if the state lock is free. -/
theorem Reachable.exists_subscribes (reachable : Reachable settings plans h) (held : h.IsHeld) (routed : h.route key = .ok i)
    (there : h.feeds[i]? = some f) (active : f.registration.isSome) (free : f.holder = none) :
    ∃ w k, Subscribes h key handler [.move (.draw key handler), .move (.subscribe ⟨h.nextToken⟩)] w k []
      (.ok ⟨h.nextToken⟩) := by
  obtain ⟨u, g, drawn, feeds, -, -, serves, step⟩ := reachable.step_attach held routed there active free handler
  have there : u.feeds[i]? = some f := feeds ▸ there
  have fin := Finishes.last (serves.step there step) serves (getElem?_afterFeed (serves.feeds_eq ▸ there) _) rfl rfl
  exact ⟨u, _, .routed routed (run_singleton drawn) (by simp) fin⟩

/-- A subscription that fails leaves no trace, if no provider invokes a callback that it refuses to register. -/
theorem noTrace_of_fails (assembled : assemble settings plans = .ok start) (own : ∀ l ∈ past, l.IsOwn)
    (ran : run Hub.step past start = some (h, before))
    (subscribes : Subscribes h key handler labels w k es (.error failure)) (ownLabels : ∀ l ∈ labels, l.IsOwn)
    (faith : ∀ i, KeepsFaith i (trail Hub.step (past ++ labels) start)) : NoTrace plans h key handler labels w k failure := by
  have opens : Opens plans .hub start := .assembled assembled
  have reachable : Reachable settings plans h := (Reachable.assembled assembled).run own ran
  generalize failed : Except.error failure = result at subscribes
  cases subscribes with
  | refused unrouted =>
    cases failed
    exact reachable.noTrace_of_unrouted unrouted
  | @routed i waiting rest _ _ said after a routed waited patient fin =>
    obtain rfl : a = .failed failure := by
      cases a with
      | failed failure' =>
        cases failed
        rfl
      | done | unknownToken => cases failed
    obtain ⟨ownWaiting, ownRest⟩ := List.forall_mem_append.1 ownLabels
    obtain ⟨calm, v, said', ownCalm, ranCalm, later, same, waits, follows⟩ :=
      exists_calm reachable (List.forall_mem_cons.1 ownWaiting).2 waited patient i
    have ranWaiting : run Hub.step (past ++ .move (.draw key handler) :: waiting) start = some (w, before ++ said) :=
      run_append.2 ⟨h, before, said, ran, waited, rfl⟩
    have ownPast := List.forall_mem_append.2 ⟨own, ownWaiting⟩
    have reachable' : Reachable settings plans w := (Reachable.assembled assembled).run ownPast ranWaiting
    have reachableCalm : Reachable settings plans v := reachable.run ownCalm ranCalm
    have routes := reachable.route_eq reachable' routed
    obtain ⟨f, there, -⟩ := reachable'.exists_feed_of_route routes
    have inactive : f.registration = none := by
      refine Option.not_isSome_iff_eq_none.1 fun active => ?_
      cases fin.done_of_active waits (feedOf?_of_route routes) there active
    -- the past of the feed is fenced off, so the subscription's epoch is of nobody's
    have faith := faith i
    rw [← List.append_assoc] at faith
    have fenced := opens.fenced ownPast ranWaiting (by rw [trail_append ranWaiting] at faith; exact faith.of_append) there
    obtain ⟨r, -, made, -, -⟩ := run_cons.1 fin.run
    obtain ⟨e, g, serves⟩ := waits.exists_enters reachable' reachableCalm same later (feedOf?_of_route routes) there inactive
      fenced made
    have ownAll : ∀ l ∈ (past ++ .move (.draw key handler) :: waiting) ++ .move (.subscribe ⟨h.nextToken⟩) :: rest,
        l.IsOwn := List.forall_mem_append.2 ⟨ownPast, ownRest⟩
    obtain ⟨u, amounts, final⟩ := e.exists_amounts opens ownAll ranWaiting faith fin (reachable.route_eq reachableCalm routed)
    have onward : Indistinguishable (skip h.nextToken) (bumped i f.epoch) u k :=
      final ▸ (amounts.continues e.continues).indistinguishable
    refine .inactive routed there inactive (fin.cause reachable' ownRest there e.free inactive serves) ?_ ownCalm ranCalm
      follows amounts final onward ?_
    · rw [trail_append waited]
      exact List.forall_mem_append.2 ⟨follows.unseen, e.unseen (List.forall_mem_cons.1 ownRest).2 fin⟩
    · intro later k' es ranLater m mem handler' signal value
      obtain ⟨_, _, _, -, -, retells⟩ := onward.back ranLater
      have ranAll : run Hub.step (.move (.draw key handler) :: waiting ++ .move (.subscribe ⟨h.nextToken⟩) :: rest) h =
          some (k, said ++ after) := run_append.2 ⟨w, said, after, waited, fin.run, rfl⟩
      rw [trail_append ranAll, trail_append waited] at mem
      rcases List.mem_append.1 mem with mem | mem
      · rcases List.mem_append.1 mem with mem | mem
        · exact follows.uncalled m mem
        · exact amounts.uncalled m mem
      · exact retells.uncalled m mem

/-- **Subscriptions fail without a trace.** Whatever a hub's clients, workers, decoders and providers have done, and
whatever they do while somebody subscribes to a key:

* a subscription that fails leaves no trace, as long as no provider invokes a callback that it refuses to register;
* one that is let into an active feed does not fail, and nor does it wait there for anything but the state lock;
* in-process providers never do that, so over them one that fails always leaves no trace. -/
theorem fails_without_trace (assembled : assemble settings plans = .ok start) (own : ∀ l ∈ past, l.IsOwn)
    (ran : run Hub.step past start = some (h, before)) (key : Key) (handler : H) :
    (∀ {labels w k es failure}, Subscribes h key handler labels w k es (.error failure) → (∀ l ∈ labels, l.IsOwn) →
      (∀ i, KeepsFaith i (trail Hub.step (past ++ labels) start)) → NoTrace plans h key handler labels w k failure) ∧
    (∀ {labels w k es result i f}, Subscribes h key handler labels w k es result → h.route key = .ok i →
      (∀ l ∈ labels, l.IsOwn) → w.feeds[i]? = some f → f.registration.isSome → result = .ok ⟨h.nextToken⟩) ∧
    (∀ {i f}, h.IsHeld → h.route key = .ok i → h.feeds[i]? = some f → f.registration.isSome → f.holder = none →
      ∃ w k, Subscribes h key handler [.move (.draw key handler), .move (.subscribe ⟨h.nextToken⟩)] w k []
        (.ok ⟨h.nextToken⟩)) ∧
    (∀ {given : List (FeedPlan V × R)} {world after : World V H R} {steps said labels w k es failure},
      World.assemble settings given = .ok world → (∀ l ∈ steps, l.IsOwn) → run World.step steps world = some (after, said) →
      world.hub = start → world.hubLabels steps = past ++ labels → Subscribes h key handler labels w k es (.error failure) →
      NoTrace plans h key handler labels w k failure) := by
  have reachable : Reachable settings plans h := (Reachable.assembled assembled).run own ran
  refine ⟨noTrace_of_fails assembled own ran, ?_, ?_, ?_⟩
  · intro labels w k es result i f subscribes routes ownLabels there active
    cases subscribes with
    | refused unrouted => cases routes.symm.trans unrouted
    | @routed j waiting rest _ _ said after a routed waited patient fin =>
      cases routes.symm.trans routed
      have ownWaiting := (List.forall_mem_append.1 ownLabels).1
      have reachable' := reachable.run ownWaiting waited
      obtain ⟨-, -, -, -, -, -, -, waits, -⟩ := exists_calm reachable (List.forall_mem_cons.1 ownWaiting).2 waited patient i
      obtain rfl := fin.done_of_active waits (feedOf?_of_route (reachable.route_eq reachable' routed)) there active
      rfl
  · intro i f held routes there active free
    exact reachable.exists_subscribes held routes there active free
  · rintro given world after steps said labels w k es failure built ownSteps ranSteps rfl same subscribes
    obtain ⟨-, -, allows⟩ := World.run_hub ranSteps
    have ownAll : ∀ l ∈ past ++ labels, l.IsOwn := same ▸ allows .hub ownSteps
    exact noTrace_of_fails assembled own ran subscribes (List.forall_mem_append.1 ownAll).2 fun i =>
      same ▸ World.keepsFaith_of_run (.assembled built) ownSteps ranSteps i

end Subscribes

end Hub

namespace Lamp

/-- The provider of the lamp, which shines, accepts no registration of somebody who has been let in to subscribe. -/
def refusal : List (HubLabel Value Unit Unit) :=
  [.hear 0 (.queried (.ok ())), .move (.advance 0 (.decoded (.ok ⟨[emission true]⟩))), .move (.advance 0 .seed),
    .move (.advance 0 .write), .move (.advance 0 .settle), .hear 0 (.registered (.error ⟨"full"⟩))]

end Lamp

/-- A subscription to the lamp whose registration is refused leaves no trace. -/
theorem Hub.lamp_is_refused :
    ∃ w k es, Hub.Subscribes Lamp.hub Lamp.key () (.move (.draw Lamp.key ()) :: .move (.subscribe ⟨1⟩) :: Lamp.refusal) w k es
        (.error (.registerFailed Lamp.plan.kind ⟨"full"⟩)) ∧
      Hub.NoTrace [Lamp.plan] Lamp.hub Lamp.key () (.move (.draw Lamp.key ()) :: .move (.subscribe ⟨1⟩) :: Lamp.refusal) w k
        (.registerFailed Lamp.plan.kind ⟨"full"⟩) := by
  have assembled : Hub.assemble {} [Lamp.plan] = .ok Lamp.hub := rfl
  have start : run Hub.step [] Lamp.hub = some (Lamp.hub, []) := run_nil _
  obtain ⟨w, waited⟩ : ∃ w, run Hub.step [.move (.draw Lamp.key ())] Lamp.hub = some (w, []) := ⟨_, rfl⟩
  obtain ⟨k, es, fin⟩ : ∃ k es, Hub.Finishes 0 w (.move (.subscribe ⟨1⟩) :: Lamp.refusal) k es
      (.failed (.registerFailed Lamp.plan.kind ⟨"full"⟩)) := by
    cases waited
    have busy : ∀ s : Section Value Unit Unit, some s ≠ none := Option.some_ne_none
    exact ⟨_, _, .more rfl rfl (busy _) (.more rfl rfl (busy _) (.more rfl rfl (busy _) (.more rfl rfl (busy _)
      (.more rfl rfl (busy _) (.more rfl rfl (busy _) (.last rfl .hear rfl rfl rfl))))))⟩
  have subscribes : Hub.Subscribes Lamp.hub Lamp.key () _ w k _ (.error (.registerFailed Lamp.plan.kind ⟨"full"⟩)) :=
    .routed rfl waited (by simp) fin
  obtain ⟨traceless, -⟩ := Hub.fails_without_trace assembled (List.forall_mem_nil _) start Lamp.key ()
  have own : ∀ l ∈ HubLabel.move (.draw Lamp.key ()) :: .move (.subscribe ⟨1⟩) :: Lamp.refusal, l.IsOwn := by
    simp [Lamp.refusal, HubLabel.IsOwn]
  have ran : run Hub.step (.move (.draw Lamp.key ()) :: .move (.subscribe ⟨1⟩) :: Lamp.refusal) Lamp.hub = some (k, es) :=
    run_append.2 ⟨w, [], es, waited, fin.run, rfl⟩
  exact ⟨w, k, _, subscribes, traceless subscribes own fun i => Hub.keepsFaith_of_uninvoked (by simp [Lamp.refusal]) ran⟩

end LazyHub
