import LazyHub.Proofs.Feed.Epochs
import LazyHub.Proofs.Hub.Silence

/-!
# What an activation starts from

When a feed is activated again, pushes of its earlier registrations are void. The notices that they have led to are
not. A notice carries its value and not whom it is meant for: who is subscribed is looked up when its delivery starts,
and by then the feed may have been deactivated, and activated again by somebody who is called with a value from before
(`Hub.lamp_is_told_of_the_past`).

* `Hub.Detects` is a change that a push makes through a callback of an epoch or a later one. Until the push has posted
  it or found nobody to tell, the push carries the change (`Hub.Carries`).
* `Hub.IsReported` is what makes a value a matter of the present: a push reports it, and has detected it.
* `Hub.Sourced` is what is known of one who comes to be subscribed with the activation or later: each value it is called
  with, or is yet to be, is such a change, or was queued already.
* `Hub.activation_starts_fresh` is the outcome: newcomers are told of nothing but later changes if nothing is queued for
  the feed's signals when the activating subscription is added, and only then.
-/

namespace LazyHub

variable {V H R : Type}

namespace Hub

variable [SignalValue V]

/-- **A change is detected.** The step writes a value that changes a signal of a feed, for a push that came through a
callback of the epoch or of a later one. -/
def Detects (i epoch : Nat) (signal : SignalId) (value : V) (m : Moment (Hub V H R) (HubLabel V H R) (HubEffect V H)) :
    Prop :=
  m.label = .move (.advance i .write) ∧ ∃ f number rest e, m.before.feeds[i]? = some f ∧
    f.writer = some ⟨some number, ⟨signal, value⟩ :: rest, .none⟩ ∧ f.isChange ⟨signal, value⟩ ∧
    f.push? number = some ⟨number, e, .writing⟩ ∧ epoch ≤ e

omit [SignalValue V] in
/-- A push that came through a callback of the epoch or of a later one has changed a signal of a feed, and is not done
with the change. -/
def Carries (i epoch : Nat) (signal : SignalId) (value : V) (h : Hub V H R) : Prop :=
  ∃ f number w e, h.feeds[i]? = some f ∧ f.writer = some w ∧ w.push = some number ∧ ⟨signal, value⟩ ∈ f.news ∧
    f.push? number = some ⟨number, e, .writing⟩ ∧ epoch ≤ e

/-- **A change is reported** in the course of what has happened since the beginning, by a push that came through a
callback of the epoch or of a later one, and was detected by then: in the course of the same, unless a push carried it
at the beginning. -/
def IsReported (start : Hub V H R) (i epoch : Nat) (signal : SignalId)
    (past : List (Moment (Hub V H R) (HubLabel V H R) (HubEffect V H))) (value : V) : Prop :=
  (∃ m ∈ past, m.label = .move (.advance i .post) ∧ Carries i epoch signal value m.before) ∧
    (Carries i epoch signal value start ∨ ∃ m ∈ past, Detects i epoch signal value m)

/-- A value was queued for a signal of a feed, or has been reported as a change since. -/
def Stems (start : Hub V H R) (i epoch : Nat) (signal : SignalId)
    (past : List (Moment (Hub V H R) (HubLabel V H R) (HubEffect V H))) (value : V) : Prop :=
  ⟨i, value⟩ ∈ start.pool.queued signal ∨ IsReported start i epoch signal past value

/-- **Where the values come from** that somebody is called with, or is yet to be, who is subscribed to a signal of a
feed: they were queued at the beginning, or are changes since. -/
structure Sourced (start : Hub V H R) (i epoch : Nat) (signal : SignalId) (token : Token)
    (past : List (Moment (Hub V H R) (HubLabel V H R) (HubEffect V H))) (h : Hub V H R) : Prop where
  /-- The feed has the signal. -/
  known : h.HasSignal i signal
  /-- No push of an earlier epoch is writing to the feed. -/
  fresh : ∀ f, h.feeds[i]? = some f → Feed.IsFresh epoch f
  /-- The change that a push is not done with. -/
  carried : ∀ f value, h.feeds[i]? = some f → ⟨signal, value⟩ ∈ f.news →
    Carries i epoch signal value start ∨ ∃ m ∈ past, Detects i epoch signal value m
  /-- The values that wait for the signal. -/
  posted : ∀ w value, .job signal ⟨i, value⟩ ∈ h.pool.queue w → Stems start i epoch signal past value
  /-- The value of a delivery that is yet to call the subscriber. -/
  delivered : ∀ w d, h.pool.current? w = some d → d.signal = signal → token ∈ d.waiting.map (·.1) →
    Stems start i epoch signal past d.value
  /-- The values with which the subscriber has been called. -/
  called : ∀ m ∈ past, ∀ handler value, .called token handler signal value ∈ m.after.effects →
    Stems start i epoch signal past value

section Step

variable {settings : Settings} {plans : List (FeedPlan V)} {h k : Hub V H R} {l : HubLabel V H R} {r : Result V H R}
  {labels : List (HubLabel V H R)} {es : List (HubEffect V H)} {signal : SignalId} {token : Token} {i epoch : Nat}
  {past : List (Moment (Hub V H R) (HubLabel V H R) (HubEffect V H))} {start : Hub V H R}

omit [SignalValue V] in
theorem uncalled_absorbAll (h : Hub V H R) (i : Nat) (es : List (FeedEffect V)) {handler : H} {value : V} :
    .called token handler signal value ∉ (h.absorbAll i es).2 := by
  intro called
  have received := mem_receivedBy.2 ⟨handler, signal, called⟩
  rw [receivedBy_absorbAll] at received
  cases received

/-- Whoever is called is called in a delivery that is under way. -/
theorem Transition.current_of_called (t : h.Transition l r) {handler : H} {value : V}
    (called : .called token handler signal value ∈ r.effects) :
    ∃ w d, h.pool.current? w = some d ∧ d.signal = signal ∧ d.value = value ∧ token ∈ d.waiting.map (·.1) := by
  cases t with
  | feed => exact (uncalled_absorbAll _ _ _ called).elim
  | call doing =>
    cases List.mem_singleton.1 called
    exact ⟨_, _, doing, rfl, rfl, List.mem_cons_self⟩
  | returned =>
    dsimp only at called
    split at called
    · cases List.mem_singleton.1 called
    · cases called
  | stop | dropLast => cases List.mem_singleton.1 called
  | _ => cases called

/-- Whose subscription is to a signal is called for this signal alone. -/
theorem Addressed.of_called (a : h.Addressed signal token) (ran : LazyHub.run Hub.step labels h = some (k, es))
    {s : SignalId} {handler : H} {value : V} (called : .called token handler s value ∈ es) : s = signal := by
  induction labels generalizing h es with
  | nil =>
    cases ran
    cases called
  | cons l rest ih =>
    obtain ⟨r, later, made, onward, rfl⟩ := run_cons.1 ran
    have t := transition_of_step made
    rcases List.mem_append.1 called with called | called
    · obtain ⟨w, d, doing, rfl, -, waits⟩ := t.current_of_called called
      exact a.called w d doing waits
    · exact ih (a.step t) onward called

/-- What every step of a feed keeps, a step of the hub keeps for each of its feeds. -/
theorem Transition.keeps_at {P : Feed V H R → Prop} (t : h.Transition l r) (reachable : Reachable settings plans h)
    (keeps : ∀ {f fl fr}, h.feeds[i]? = some f → Feed.step f fl = some fr → P f → P fr.state)
    (now : ∀ f, h.feeds[i]? = some f → P f) : ∀ f, r.state.feeds[i]? = some f → P f := by
  intro f after
  have lt : i < h.feeds.length := t.length_feeds ▸ (List.getElem?_eq_some_iff.1 after).1
  have there := List.getElem?_eq_getElem lt
  rcases t.mirrors reachable.arises there with ⟨fl, fr, after', step, -⟩ | ⟨after', -⟩
  · obtain rfl := Option.some.inj (after.symm.trans after')
    exact keeps there step (now _ there)
  · obtain rfl := Option.some.inj (after.symm.trans after')
    exact now _ there

/-- What is known by now is known later. -/
theorem known_mono {value : V} (known : Carries i epoch signal value start ∨ ∃ m ∈ past, Detects i epoch signal value m)
    (more : List (Moment (Hub V H R) (HubLabel V H R) (HubEffect V H))) :
    Carries i epoch signal value start ∨ ∃ m ∈ past ++ more, Detects i epoch signal value m := by
  rcases known with carries | ⟨m, mem, detects⟩
  · exact .inl carries
  · exact .inr ⟨m, List.mem_append_left _ mem, detects⟩

theorem Stems.mono {value : V} (stems : Stems start i epoch signal past value)
    (more : List (Moment (Hub V H R) (HubLabel V H R) (HubEffect V H))) :
    Stems start i epoch signal (past ++ more) value := by
  rcases stems with queued | ⟨⟨m, mem, reports⟩, known⟩
  · exact .inl queued
  · exact .inr ⟨⟨m, List.mem_append_left _ mem, reports⟩, known_mono known more⟩

omit [SignalValue V] in
/-- A change of a feed that is being written to since an epoch is carried by a push of that epoch or a later one. -/
theorem carries_of_isFresh {f : Feed V H R} {value : V} (orderly : f.Orderly) (fresh : Feed.IsFresh epoch f)
    (there : h.feeds[i]? = some f) (mem : ⟨signal, value⟩ ∈ f.news) : Carries i epoch signal value h := by
  obtain ⟨w, number, writing, by'⟩ := orderly.carried _ mem
  obtain ⟨e, writes, le⟩ := fresh.2 number w writing by'
  exact ⟨f, number, w, e, there, writing, by', mem, writes, le⟩

/-- The change that a push is not done with after a step is carried on, or is detected in the step. -/
theorem Sourced.carried_step (s : Sourced start i epoch signal token past h) (reachable : Reachable settings plans h)
    (t : h.Transition l r) {f' : Feed V H R} {value : V} (after : r.state.feeds[i]? = some f')
    (mem : ⟨signal, value⟩ ∈ f'.news) :
    Carries i epoch signal value start ∨ ∃ m ∈ past ++ [⟨h, l, r⟩], Detects i epoch signal value m := by
  obtain ⟨f, there, -⟩ := s.known
  have carried : ⟨signal, value⟩ ∈ f.news →
      Carries i epoch signal value start ∨ ∃ m ∈ past ++ [⟨h, l, r⟩], Detects i epoch signal value m := fun mem =>
    known_mono (s.carried f value there mem) _
  rcases t.mirrors reachable.arises there with ⟨fl, fr, after', step, -, -, makes⟩ | ⟨same, -⟩
  · obtain rfl := Option.some.inj (after.symm.trans after')
    rcases (Feed.transition_of_step step).mem_news mem with ⟨mem, -⟩ | ⟨rfl, change, number, rest, writing⟩
    · exact carried mem
    · obtain ⟨e, writes, le⟩ := (s.fresh f there).2 number _ writing rfl
      cases makes with
      | served serves =>
        exact .inr ⟨_, List.mem_append_right _ (List.mem_singleton_self _), serves.advance_eq, f, number, rest, e, there,
          writing, change, writes, le⟩
  · obtain rfl := Option.some.inj (after.symm.trans same)
    exact carried mem

/-- What is queued after a step was queued before, or is a change that the step reports. -/
theorem Sourced.posted_step (s : Sourced start i epoch signal token past h) (reachable : Reachable settings plans h)
    (t : h.Transition l r) {w : Nat} {value : V} (mem : .job signal ⟨i, value⟩ ∈ r.state.pool.queue w) :
    Stems start i epoch signal (past ++ [⟨h, l, r⟩]) value := by
  rcases t.mem_queue_of_owed mem with mem | ⟨-, fl, g, f, fr, serves, there, step, owed⟩
  · exact (s.posted w value mem).mono _
  · obtain ⟨rfl, push, rest, posting⟩ := (Feed.transition_of_step step).posts_of_owed owed
    have mem : ⟨signal, value⟩ ∈ f.news := by simp [Feed.news_of_writer posting]
    have carries := carries_of_isFresh (reachable.orderly there) (s.fresh f there) there mem
    exact .inr ⟨⟨_, List.mem_append_right _ (List.mem_singleton_self _), serves.advance_eq, carries⟩,
      known_mono (s.carried f value there mem) _⟩

/-- **What is known of newcomers is kept by every step.** -/
theorem Sourced.step (s : Sourced start i epoch signal token past h) (reachable : Reachable settings plans h)
    (t : h.Transition l r) : Sourced start i epoch signal token (past ++ [⟨h, l, r⟩]) r.state where
  known := t.hasSignal s.known
  fresh := t.keeps_at reachable
    (fun there step fresh => fresh.step (reachable.orderly there) (Feed.transition_of_step step)) s.fresh
  carried _ _ after mem := s.carried_step reachable t after mem
  posted _ _ mem := s.posted_step reachable t mem
  delivered w d doing same waits := by
    subst same
    rcases t.current doing with ⟨e, was, leads⟩ | ⟨j, mem, -⟩
    · have stems := s.delivered w e was leads.signal ((leads.waiting.map _).subset waits)
      exact leads.value ▸ stems.mono _
    · obtain ⟨-, g, hg, inSecond⟩ := reachable.staffed.routed w d.signal _ mem
      obtain ⟨f, hf, inFirst⟩ := s.known
      obtain rfl := reachable.same_feed hf hg inFirst inSecond
      exact (s.posted w d.value mem).mono _
  called m mem handler value called := by
    rcases List.mem_append.1 mem with mem | mem
    · exact (s.called m mem handler value called).mono _
    · rw [List.mem_singleton.1 mem] at called
      obtain ⟨w, d, doing, signal, rfl, waits⟩ := t.current_of_called called
      exact (s.delivered w d doing signal waits).mono _

theorem Sourced.run (s : Sourced start i epoch signal token past h) (reachable : Reachable settings plans h)
    (own : ∀ l ∈ labels, l.IsOwn) (ran : LazyHub.run Hub.step labels h = some (k, es)) :
    Sourced start i epoch signal token (past ++ trail Hub.step labels h) k := by
  induction labels generalizing h es past with
  | nil =>
    cases ran
    simpa using s
  | cons l rest ih =>
    obtain ⟨r, later, made, onward, rfl⟩ := run_cons.1 ran
    have next := ih (s.step reachable (transition_of_step made)) (reachable.step (own l List.mem_cons_self) made)
      (fun l hl => own l (List.mem_cons_of_mem _ hl)) onward
    rw [trail_cons made]
    simpa using next

end Step

/-! ### The activation -/

section Activation

variable {settings : Settings} {plans : List (FeedPlan V)} {h : Hub V H R} {l : HubLabel V H R} {r : Result V H R}
  {i : Nat} {f f' : Feed V H R}

omit [SignalValue V] in
/-- Nothing waits to be delivered for any signal of a feed. -/
def IsUnqueued (h : Hub V H R) (i : Nat) : Prop := ∀ signal, h.HasSignal i signal → h.pool.queued signal = []

/-- **A fresh baseline.** Whatever happens from `g` on, whoever was not subscribed before `h` is called for a signal of
the feed with changes alone that pushes report from `g` on, and none of them is of an earlier epoch than the feed's. -/
def StartsFresh (h : Hub V H R) (i : Nat) (g : Hub V H R) : Prop :=
  ∀ labels k es, (∀ l ∈ labels, l.IsOwn) → LazyHub.run Hub.step labels g = some (k, es) →
    ∀ f token handler signal value, g.feeds[i]? = some f → g.HasSignal i signal → ¬ h.Spent token →
      .called token handler signal value ∈ es → IsReported g i f.epoch signal (trail Hub.step labels g) value

/-- When a feed comes to be active, it is by the answer to a registration asked for a subscription. -/
theorem Transition.activates (t : h.Transition l r) (reachable : Reachable settings plans h)
    (there : h.feeds[i]? = some f) (inactive : f.registration = none) (after : r.state.feeds[i]? = some f')
    (active : f'.registration.isSome) :
    Feed.IsFresh f'.epoch f' ∧ f'.holder = none ∧ r.state.IsHeld ∧ Nonempty H := by
  have seeded : f.IsSeeded := by
    refine (reachable.arises.keeps (P := fun f => f.Orderly ∧ f.IsSeeded)
      (fun plan => ⟨Feed.orderly_ofPlan plan, Feed.isSeeded_ofPlan plan⟩) ?_ there).2
    rintro f l r ⟨orderly, seeded⟩ made
    have t := Feed.transition_of_step made
    exact ⟨orderly.step t, seeded.step orderly t⟩
  have mem := List.mem_of_getElem? there
  rcases t.mirrors reachable.arises there with ⟨fl, fr, after', step, -, -, makes⟩ | ⟨same, -⟩
  · obtain rfl := Option.some.inj (after.symm.trans after')
    have tf := Feed.transition_of_step step
    obtain ⟨⟨purpose, held⟩, free, -⟩ := tf.registers inactive active
    have balanced := reachable.sound.balanced f mem
    simp only [Feed.Balanced, held] at balanced
    obtain ⟨-, signal, token, handler, -, -⟩ := balanced
    have isHeld := reachable.sound.owns.isHeld mem (by rw [Feed.pull?, held]; rfl)
    refine ⟨seeded.isFresh tf inactive active, free, t.isHeld isHeld fun quiet => ?_, ⟨handler⟩⟩
    cases held.symm.trans (free_of_isQuiet quiet mem)
  · obtain rfl := Option.some.inj (after.symm.trans same)
    exact absurd inactive (Option.isSome_iff_ne_none.1 active)

/-- Whoever comes to an active feed is yet to be called with what is queued for its signal, whenever that was posted. -/
theorem Reachable.exists_newcomer (reachable : Reachable settings plans h) (held : h.IsHeld)
    (there : h.feeds[i]? = some f) (active : f.registration.isSome) (free : f.holder = none) {signal : SignalId}
    (known : (f.outlet? signal).isSome) (handler : H) :
    ∃ key k, LazyHub.run Hub.step [.move (.draw key handler), .move (.subscribe ⟨h.nextToken⟩)] h = some (k, []) ∧
      (⟨h.nextToken⟩, handler) ∈ k.subscribersOf i signal ∧
      k.pool.pending signal ⟨h.nextToken⟩ = (h.pool.queued signal).map (·.value) := by
  obtain ⟨o, ho⟩ := Option.isSome_iff_exists.1 known
  have named := Feed.id_of_outlet? ho
  have routed : h.route o.key = .ok i := by
    obtain ⟨kind, found⟩ := reachable.find?_eq there ho
    simp [route, named, found]
  obtain ⟨u, g, drawn, feeds, pool, awaits, serves, step⟩ := reachable.step_attach held routed there active free handler
  rw [named] at serves step
  have there' : g.feeds[i]? = some f := serves.feeds_eq ▸ feeds ▸ there
  have made := serves.step (feeds ▸ there) step
  have attached : ((f.attach signal ⟨h.nextToken⟩ handler).release .done).state.Lists signal (⟨h.nextToken⟩, handler) :=
    Feed.lists_attached known _ handler
  have reached := reachable.step (l := .move (.draw o.key handler)) trivial drawn
  have pending := (transition_of_step made).pending_eq_of_awaits reached signal awaits
  refine ⟨o.key, _, run_cons.2 ⟨_, _, drawn, run_singleton made, rfl⟩,
    mem_subscribersOf.2 ⟨_, getElem?_afterFeed there' _, attached⟩, pending.trans ?_⟩
  exact congrArg (fun p => (p.queued signal).map (·.value)) (serves.pool_eq.trans pool)

/-- Whoever comes to an active feed is told of what is queued for its signal, if the workers are left to go on. -/
theorem Reachable.exists_told (catches : settings.catches = true) (reachable : Reachable settings plans h)
    (held : h.IsHeld) (there : h.feeds[i]? = some f) (active : f.registration.isSome) (free : f.holder = none)
    {signal : SignalId} (known : (f.outlet? signal).isSome) (handler : H) :
    ∃ labels k es, (∀ l ∈ labels, l.IsOwn) ∧ (∀ j move, .move (.advance j move) ∉ labels) ∧
      LazyHub.run Hub.step labels h = some (k, es) ∧
      ∀ notice ∈ h.pool.queued signal, ∃ handler, .called ⟨h.nextToken⟩ handler signal notice.value ∈ es := by
  obtain ⟨key, k, ran, lists, pending⟩ := reachable.exists_newcomer held there active free known handler
  have after := reachable.run (by simp [HubLabel.IsOwn]) ran
  obtain ⟨more, m, es, works, onward, drained, -⟩ := exists_drain catches after (after.open_of_mem lists) rfl
  obtain ⟨g, hg, o, ho, -⟩ := mem_subscribersOf.1 lists
  have cached : g.cached? signal = some o.gate.value := by simp [Feed.cached?, ho]
  obtain ⟨-, all⟩ := received_of_drain catches after (by simp) (run_nil k) (after.spent_of_mem lists) lists hg cached works
    onward
  have received : receivedBy ⟨h.nextToken⟩ es = (h.pool.queued signal).map (·.value) := by
    simpa [due, pending, pushedTo, valuesFor, changes] using all drained
  refine ⟨_, m, _, ?_, ?_, run_append.2 ⟨k, [], es, ran, onward, rfl⟩, ?_⟩
  · exact List.forall_mem_append.2 ⟨by simp [HubLabel.IsOwn], fun l mem => (works l mem).isOwn⟩
  · intro j move mem
    have among : .move (.advance j move) ∈ more := by simpa using mem
    exact works _ among
  · intro notice mem
    have told : notice.value ∈ receivedBy ⟨h.nextToken⟩ es := received ▸ List.mem_map_of_mem mem
    obtain ⟨handler', s, called⟩ := mem_receivedBy.1 told
    obtain rfl := (after.addressed lists).of_called onward called
    exact ⟨handler', called⟩

/-- Where a feed comes to be active, no value that a newcomer is to be called with is known of but those queued. -/
theorem Transition.sourced (t : h.Transition l r) (reachable : Reachable settings plans h)
    (reached : Reachable settings plans r.state) (after : r.state.feeds[i]? = some f') (fresh : Feed.IsFresh f'.epoch f')
    {signal : SignalId} {token : Token} (known : r.state.HasSignal i signal) (new : ¬ h.Spent token) :
    Sourced r.state i f'.epoch signal token [] r.state where
  known := known
  fresh g hg := Option.some.inj (after.symm.trans hg) ▸ fresh
  carried g _ hg mem := by
    obtain rfl := Option.some.inj (after.symm.trans hg)
    exact .inl (carries_of_isFresh (reached.orderly after) fresh after mem)
  posted w value mem := by
    obtain ⟨rfl, -⟩ := reached.staffed.routed w signal _ mem
    exact .inl (WorkerPool.mem_queued.2 mem)
  delivered w d doing _ waits := by
    -- a delivery under way calls those who have been subscribed before
    obtain ⟨e, mem, rfl⟩ := List.mem_map.1 waits
    rcases t.current doing with ⟨c, was, leads⟩ | ⟨j, -, all⟩
    · exact absurd (reachable.staffed.listed w c was e (leads.waiting.subset mem)).1 new
    · exact absurd (reachable.spent_of_mem (all ▸ mem)) new
  called _ mem := by cases mem

/-- **An activation starts from a fresh baseline if nothing is left of the past.** An inactive feed comes to be active.
Whatever happens from then on, whoever comes to be subscribed to a signal of the feed, in this step or later,

* is called with nothing but values that were queued for the signal when the feed came to be active, and changes that
  are reported later, by pushes through the callback of this activation or of a later one: each was detected later,
  too, or such a push had written it and was not done with it;
* so it is told of nothing from before if nothing was queued for the feed's signals;
* and if panics are caught this is the only way: of anything that was queued a newcomer can be told. -/
theorem activation_starts_fresh (reachable : Reachable settings plans h) (own : l.IsOwn) (made : h.step l = some r)
    (there : h.feeds[i]? = some f) (inactive : f.registration = none) (after : r.state.feeds[i]? = some f')
    (active : f'.registration.isSome) :
    (∀ labels k es, (∀ l ∈ labels, l.IsOwn) → LazyHub.run Hub.step labels r.state = some (k, es) →
      ∀ token handler signal value, r.state.HasSignal i signal → ¬ h.Spent token →
        .called token handler signal value ∈ es →
        Stems r.state i f'.epoch signal (trail Hub.step labels r.state) value) ∧
    (r.state.IsUnqueued i → StartsFresh h i r.state) ∧
    (settings.catches = true → StartsFresh h i r.state → r.state.IsUnqueued i) := by
  have t := transition_of_step made
  have reached := reachable.step own made
  obtain ⟨fresh, free, held, ⟨handler⟩⟩ := t.activates reachable there inactive after active
  have stems : ∀ labels k es, (∀ l ∈ labels, l.IsOwn) → LazyHub.run Hub.step labels r.state = some (k, es) →
      ∀ token handler signal value, r.state.HasSignal i signal → ¬ h.Spent token →
        .called token handler signal value ∈ es →
        Stems r.state i f'.epoch signal (trail Hub.step labels r.state) value := by
    intro labels k es ownRest ran token handler signal value known new called
    have sourced := (t.sourced reachable reached after fresh known new).run reached ownRest ran
    rw [List.nil_append] at sourced
    rw [← flatMap_effects_trail ran, List.mem_flatMap] at called
    obtain ⟨m, mem, called⟩ := called
    exact sourced.called m mem handler value called
  refine ⟨stems, ?_, ?_⟩
  · intro unqueued labels k es ownRest ran g token handler signal value hg known new called
    obtain rfl := Option.some.inj (after.symm.trans hg)
    refine (stems labels k es ownRest ran token handler signal value known new called).resolve_left ?_
    rw [unqueued signal known]
    exact List.not_mem_nil
  · intro catches startsFresh signal known
    obtain ⟨g, hg, inFeed⟩ := known
    obtain rfl := Option.some.inj (after.symm.trans hg)
    obtain ⟨labels, k, es, ownRest, still, ran, told⟩ := reached.exists_told catches held after active free inFeed handler
    refine List.eq_nil_iff_forall_not_mem.2 fun notice mem => ?_
    obtain ⟨handler', called⟩ := told notice mem
    have new : ¬ h.Spent ⟨r.state.nextToken⟩ := fun spent => Nat.not_lt.2 t.nextToken_le spent.1
    obtain ⟨⟨m, among, label, -⟩, -⟩ :=
      startsFresh labels k es ownRest ran _ _ handler' signal _ after ⟨_, after, inFeed⟩ new called
    refine still i .post ?_
    rw [← label, ← map_label_trail ran]
    exact List.mem_map_of_mem among

end Activation

end Hub

/-! ### The lamp -/

namespace Lamp

/-- Whoever is subscribed to the lamp is told of what is next. -/
def delivery : List (HubLabel Value Unit Unit) :=
  [.move (.take 0), .move (.call 0), .move (.returned 0 false), .move (.finish 0)]

/-- The lamp goes dark while somebody is subscribed to it, who then leaves. It shines again by the time that somebody
else subscribes, whose registration is yet to be answered. -/
def resubscription (meanwhile : List (HubLabel Value Unit Unit)) : List (HubLabel Value Unit Unit) :=
  subscription ++
    [.invoke 0 1 (), .move (.advance 0 (.pushDecoded 0 (.ok ⟨[emission false]⟩))), .move (.advance 0 (.enter 0)),
      .move (.advance 0 .write), .move (.advance 0 .look), .move (.advance 0 .post), .move (.advance 0 .settle),
      .move (.advance 0 (.leave 0))] ++ meanwhile ++
    [.move (.unsubscribe key.id ⟨1⟩), .move (.advance 0 .withdraw), .hear 0 (.unregistered (.ok ())),
      .move (.draw key ()), .move (.subscribe ⟨2⟩), .hear 0 (.queried (.ok ())),
      .move (.advance 0 (.decoded (.ok ⟨[emission true]⟩))), .move (.advance 0 .seed), .move (.advance 0 .write),
      .move (.advance 0 .settle)]

end Lamp

namespace Hub

/-- If the first subscriber is told that the lamp went dark before it leaves, the second one starts afresh. -/
theorem lamp_starts_fresh :
    ∃ h past r, run Hub.step (Lamp.resubscription Lamp.delivery) Lamp.hub = some (h, past) ∧
      receivedBy ⟨1⟩ past = [.truth false] ∧ h.step (.hear 0 (.registered (.ok ⟨2⟩))) = some r ∧
      r.state.subscribersOf 0 Lamp.key.id = [(⟨2⟩, ())] ∧ StartsFresh h 0 r.state := by
  obtain ⟨h, past, f, r, f', ran, told, there, inactive, made, lists, after, active, idle⟩ : ∃ h past f r f',
      run Hub.step (Lamp.resubscription Lamp.delivery) Lamp.hub = some (h, past) ∧
      receivedBy ⟨1⟩ past = [.truth false] ∧ h.feeds[0]? = some f ∧ f.registration = none ∧
      h.step (.hear 0 (.registered (.ok ⟨2⟩))) = some r ∧ r.state.subscribersOf 0 Lamp.key.id = [(⟨2⟩, ())] ∧
      r.state.feeds[0]? = some f' ∧ f'.registration.isSome ∧ r.state.pool = .ofSize 1 true :=
    ⟨_, _, _, _, _, rfl, rfl, rfl, rfl, rfl, rfl, rfl, rfl, rfl⟩
  have assembled : assemble {} [Lamp.plan] = .ok Lamp.hub := rfl
  have reachable := (Reachable.assembled assembled).run
    (by simp [Lamp.resubscription, Lamp.subscription, Lamp.delivery, HubLabel.IsOwn]) ran
  have unqueued : r.state.IsUnqueued 0 := by
    intro signal _
    have shard : (WorkerPool.ofSize 1 true : WorkerPool (Notice Value) (Delivery Value Unit)).shard signal = 0 :=
      Nat.mod_one _
    rw [idle, WorkerPool.queued, shard]
    rfl
  have own : (HubLabel.hear 0 (.registered (.ok ⟨2⟩)) : HubLabel Value Unit Unit).IsOwn := trivial
  obtain ⟨-, fresh, -⟩ := activation_starts_fresh reachable own made there inactive after active
  exact ⟨h, past, r, ran, told, made, lists, fresh unqueued⟩

/-- **A newcomer can be told of the past.** If the first subscriber leaves before it is told, the second one is told that
the lamp went dark: by a push that came through the first one's registration, and before the second one's values were
pulled. -/
theorem lamp_is_told_of_the_past :
    assemble {} [Lamp.plan] = .ok Lamp.hub ∧
      ∃ h past r k told, run Hub.step (Lamp.resubscription []) Lamp.hub = some (h, past) ∧
        h.step (.hear 0 (.registered (.ok ⟨2⟩))) = some r ∧ r.state.cached? Lamp.key.id = some (.truth true) ∧
        run Hub.step [.move (.take 0), .move (.call 0)] r.state = some (k, told) ∧
        receivedBy ⟨2⟩ told = [.truth false] ∧ ¬ StartsFresh h 0 r.state := by
  obtain ⟨h, past, f, r, f', k, told, ran, there, awaited, made, seeded, onward, called, after, known⟩ :
      ∃ h past f r f' k told, run Hub.step (Lamp.resubscription []) Lamp.hub = some (h, past) ∧
        h.feeds[0]? = some f ∧ f.awaited? = some ⟨2⟩ ∧
        h.step (.hear 0 (.registered (.ok ⟨2⟩))) = some r ∧ r.state.cached? Lamp.key.id = some (.truth true) ∧
        run Hub.step [.move (.take 0), .move (.call 0)] r.state = some (k, told) ∧
        told = [.called ⟨2⟩ () Lamp.key.id (.truth false)] ∧ r.state.feeds[0]? = some f' ∧
        (f'.outlet? Lamp.key.id).isSome :=
    ⟨_, _, _, _, _, _, _, rfl, rfl, rfl, rfl, rfl, rfl, rfl, rfl, rfl⟩
  refine ⟨rfl, h, past, r, k, told, ran, made, seeded, onward, called ▸ rfl, ?_⟩
  intro fresh
  have new : ¬ h.Spent ⟨2⟩ := fun spent => spent.2 (.inr ⟨f, List.mem_of_getElem? there, awaited⟩)
  obtain ⟨⟨m, among, label, -⟩, -⟩ := fresh _ k told (by simp [HubLabel.IsOwn]) onward f' ⟨2⟩ () Lamp.key.id (.truth false) after
    ⟨f', after, known⟩ new (called ▸ List.mem_singleton_self _)
  -- nothing is posted in the course of the delivery
  have posted : m.label ∈ [.move (.take 0), .move (.call 0)] := map_label_trail onward ▸ List.mem_map_of_mem among
  simp [label] at posted

end Hub

end LazyHub
