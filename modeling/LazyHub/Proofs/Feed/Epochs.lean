import LazyHub.Proofs.Feed.Ledger

/-!
# Pushes of registrations that are over

A payload may be with its decoder for any length of time, while the registration through which it
was pushed is ended, and the feed activated again. The epoch of its callback decides what becomes of
it when it comes to the update lock: a push whose registration has been ended leaves the caches and
the subscribers alone for good, and one whose registration is current has its values written once
(`ended_pushes_are_void`).

It follows that an activation starts from what it has pulled: after its values have been taken to the
update lock, nothing is written but by pushes of later registrations.
-/

namespace LazyHub.Feed

variable {V H R : Type}

/-- What a push has yet to write under the update lock. -/
def unwritten (f : Feed V H R) (number : Nat) : List (Emission V) :=
  match f.writer with
  | some w => if w.push = some number then w.rest else []
  | none => []

/-- A push has written some of the values, and is about to write the others or has written all. -/
def HasWritten (number : Nat) (values : List (Emission V))
    (past : List (Moment (Feed V H R) (FeedLabel V H R) (FeedEffect V))) (f : Feed V H R) : Prop :=
  (∃ w, f.writer = some w ∧ w.push = some number ∧ number < f.pushCount ∧
      writesBy number (writes past) ++ w.rest = values) ∨
    f.IsThrough number ∧ writesBy number (writes past) = values

theorem HasWritten.unwritten_eq {number : Nat} {values : List (Emission V)}
    {past : List (Moment (Feed V H R) (FeedLabel V H R) (FeedEffect V))} {f : Feed V H R}
    (h : HasWritten number values past f) : writesBy number (writes past) ++ f.unwritten number = values := by
  rcases h with ⟨w, writing, by', -, wrote⟩ | ⟨⟨-, unlocked⟩, wrote⟩
  · simp [unwritten, writing, by', wrote]
  · have none : f.unwritten number = [] := by
      unfold unwritten
      split
      · rename_i w writing
        exact if_neg (unlocked w writing)
      · rfl
    rw [none, wrote, List.append_nil]

variable [SignalValue V]

theorem HasWritten.step {number : Nat} {values : List (Emission V)}
    {past : List (Moment (Feed V H R) (FeedLabel V H R) (FeedEffect V))} {f : Feed V H R}
    {l : FeedLabel V H R} {r : Result V H R} (h : HasWritten number values past f) (t : f.Transition l r) :
    HasWritten number values (past ++ [⟨f, l, r⟩]) r.state := by
  have wrote : writesBy number (writes (past ++ [⟨f, l, r⟩])) =
      writesBy number (writes past) ++ writesBy number (f.write? l).toList := by
    rw [writes_append, writesBy_append, writes_cons, writes_nil, List.append_nil]
  rw [HasWritten, wrote]
  rcases h with ⟨⟨push, rest, news⟩, writing, rfl, given, rfl⟩ | ⟨through, eq⟩
  · by_cases settles : l = .advance .settle
    · subst settles
      cases t with
      | settlePush writing' =>
        rw [writing'] at writing
        cases writing
        refine .inr ⟨⟨reaches_setPhase .leaving given, nofun⟩, ?_⟩
        simp [write?, writesBy]
      | settleRefresh _ writing' | settle _ _ writing' =>
        rw [writing'] at writing
        cases writing
    · obtain ⟨done, left, news', rfl, writing', eq⟩ := t.writer_eq writing settles
      refine .inl ⟨_, writing', rfl, Nat.lt_of_lt_of_le given t.pushCount_le, ?_⟩
      rw [writesBy_of_map eq, List.append_assoc]
  · obtain ⟨through, nothing, -⟩ := t.isThrough through
    exact .inr ⟨through, by rw [nothing, List.append_nil, eq]⟩

/-! ### After an activation -/

/-- No push of an earlier epoch is under the update lock. -/
def IsFresh (epoch : Nat) (f : Feed V H R) : Prop :=
  epoch ≤ f.epoch ∧ ∀ number w, f.writer = some w → w.push = some number →
    ∃ e, f.push? number = some ⟨number, e, .writing⟩ ∧ epoch ≤ e

theorem IsFresh.step {epoch : Nat} {f : Feed V H R} {l : FeedLabel V H R} {r : Result V H R}
    (h : IsFresh epoch f) (o : f.Orderly) (t : f.Transition l r) : IsFresh epoch r.state := by
  refine ⟨Nat.le_trans h.1 t.epoch_le, ?_⟩
  intro number w writing by'
  rcases t.locked writing by' with ⟨w', writing', by'⟩ | ⟨free, known, rfl⟩
  · obtain ⟨e, writes, le⟩ := h.2 number w' writing' by'
    exact ⟨e, t.writes_on o writes writing, le⟩
  · exact ⟨f.epoch, t.accepts free known writing, h.1⟩

/-- Only the holder of the update lock changes a gate or owes anybody anything. -/
theorem Transition.writing_of_effect {f : Feed V H R} {l : FeedLabel V H R} {r : Result V H R}
    (t : f.Transition l r) (effect : r.state.gates ≠ f.gates ∨ ∃ signal, owedTo signal r.effects ≠ []) :
    (l = .advance .write ∨ l = .advance .post) ∧ ∃ w, f.writer = some w := by
  rcases effect with changed | ⟨signal, owes⟩
  · have written : l = .advance .write := by
      by_contra other
      exact changed (t.gates_eq other)
    subst written
    cases t with
    | write writing => exact ⟨.inl rfl, _, writing⟩
  · have posted : l = .advance .post := by
      by_contra other
      exact owes (t.owedTo_eq_nil other signal)
    subst posted
    cases t with
    | post posting => exact ⟨.inr rfl, _, posting⟩

theorem IsFresh.run {epoch : Nat} {labels : List (FeedLabel V H R)} {f k : Feed V H R}
    {es : List (FeedEffect V)} (h : IsFresh epoch f) (o : f.Orderly)
    (ran : run Feed.step labels f = some (k, es)) : IsFresh epoch k := by
  have both : ∀ l ∈ labels, ∀ {s r}, s.Orderly ∧ IsFresh epoch s → Feed.step s l = some r →
      r.state.Orderly ∧ IsFresh epoch r.state := by
    rintro l - s r ⟨orderly, fresh⟩ made
    have t := transition_of_step made
    exact ⟨orderly.step t, fresh.step orderly t⟩
  exact (run_keeps both ran ⟨o, h⟩).2

/-- What is owed to anybody is a change that is not dealt with yet. -/
theorem Transition.posts_of_owed {f : Feed V H R} {l : FeedLabel V H R} {r : Result V H R} (t : f.Transition l r)
    {signal : SignalId} {value : V} (owed : .owed signal value ∈ r.effects) :
    l = .advance .post ∧ ∃ push rest, f.writer = some ⟨push, rest, .wanted ⟨signal, value⟩⟩ := by
  cases t with
  | @post push e rest posting =>
    obtain ⟨rfl, rfl⟩ : signal = e.signal ∧ value = e.value := by simpa using owed
    exact ⟨rfl, push, rest, posting⟩
  | cleared | clearedInactive =>
    dsimp only at owed
    split at owed
    · cases List.mem_singleton.1 owed
    · cases owed
  | _ => simp at owed

/-- Who waits for the answer to a registration has waited for it before in the same epoch, or has just let go of the
update lock. -/
theorem Transition.awaits_registration {f : Feed V H R} {l : FeedLabel V H R} {r : Result V H R} (t : f.Transition l r)
    {purpose : Purpose H} (held : r.state.holder = some (.registering purpose)) :
    f.holder = some (.registering purpose) ∧ r.state.epoch = f.epoch ∨ r.state.writer = none := by
  cases t with
  | settle => exact .inr rfl
  | activate | deactivate | refresh | subscribe | detachLast | shutdown | queryFailed | queried | registerFailed
  | subscribed | activated | unregistered | decodeFailed | decoded | seed | settleRefresh | clear | cleared
  | clearedInactive | withdraw | retire | dropLast => cases held
  | _ => exact .inl ⟨held, rfl⟩

/-- An inactive feed comes to be active by the answer to a registration, and by nothing else. -/
theorem Transition.registers {f : Feed V H R} {l : FeedLabel V H R} {r : Result V H R} (t : f.Transition l r)
    (inactive : f.registration = none) (active : r.state.registration.isSome) :
    (∃ purpose, f.holder = some (.registering purpose)) ∧ r.state.holder = none ∧ r.state.epoch = f.epoch ∧
      r.state.writer = f.writer ∧ r.state.pushes = f.pushes := by
  cases t with
  | @subscribed signal token handler _ held => exact ⟨⟨_, held⟩, rfl, rfl, rfl, rfl⟩
  | @activated purpose _ held => exact ⟨⟨_, held⟩, rfl, rfl, rfl, rfl⟩
  | withdraw | retire | dropLast => cases active
  | _ => exact absurd inactive (Option.isSome_iff_ne_none.1 active)

/-- **While a registration is asked for**, no push of an earlier epoch is under the update lock. -/
def IsSeeded (f : Feed V H R) : Prop := ∀ purpose, f.holder = some (.registering purpose) → IsFresh f.epoch f

omit [SignalValue V] in
theorem isSeeded_ofPlan (plan : FeedPlan V) : (ofPlan plan : Feed V H R).IsSeeded := nofun

theorem IsSeeded.step {f : Feed V H R} {l : FeedLabel V H R} {r : Result V H R} (h : f.IsSeeded) (o : f.Orderly)
    (t : f.Transition l r) : r.state.IsSeeded := by
  intro purpose held
  rcases t.awaits_registration held with ⟨was, same⟩ | unlocked
  · exact same ▸ (h purpose was).step o t
  · refine ⟨Nat.le_refl _, ?_⟩
    intro number w writing
    cases unlocked.symm.trans writing

/-- A feed that comes to be active has no push of an earlier epoch under the update lock. -/
theorem IsSeeded.isFresh {f : Feed V H R} {l : FeedLabel V H R} {r : Result V H R} (h : f.IsSeeded)
    (t : f.Transition l r) (inactive : f.registration = none) (active : r.state.registration.isSome) :
    IsFresh r.state.epoch r.state := by
  obtain ⟨⟨purpose, held⟩, -, epoch, writer, pushes⟩ := t.registers inactive active
  refine ⟨Nat.le_refl _, ?_⟩
  intro number w writing by'
  obtain ⟨e, writes, le⟩ := (h purpose held).2 number w (writer ▸ writing) by'
  refine ⟨e, ?_, epoch ▸ le⟩
  rw [push?, pushes]
  exact writes

/-! ### What becomes of a push -/

section Entering

variable {past : List (Moment (Feed V H R) (FeedLabel V H R) (FeedEffect V))} {f : Feed V H R}
  {r : Result V H R} {number epoch : Nat} {values : List (Emission V)}

/-- A push whose registration has been ended gives up at the update lock. -/
theorem Transition.gives_up (t : f.Transition (.advance (.enter number)) r) (o : f.Orderly)
    (b : Books past f) (ready : f.push? number = some ⟨number, epoch, .ready values⟩)
    (ended : epoch ∈ (ledger past).ended) :
    r.state.gates = f.gates ∧ (∀ signal, owedTo signal r.effects = []) ∧ r.state.IsThrough number := by
  obtain ⟨mem, -⟩ := mem_of_push? ready
  have earlier : epoch < f.epoch := by
    refine (b.ended epoch ended).resolve_right fun unowned => ?_
    have unpushed := List.length_eq_zero_iff.1 (Nat.add_eq_zero_iff.1 unowned).2
    rw [unpushed] at mem
    cases mem
  cases t with
  | pushAccepted known =>
    rw [known] at ready
    cases ready
    exact absurd earlier (Nat.lt_irrefl _)
  | pushStale known free =>
    refine ⟨rfl, fun _ => rfl, reaches_setPhase .leaving (o.numbered _ mem), ?_⟩
    intro w writing
    cases free.symm.trans writing

/-- A push whose registration is current is given the update lock with all its values. -/
theorem Transition.takes_lock (t : f.Transition (.advance (.enter number)) r) (b : Books past f)
    (ready : f.push? number = some ⟨number, epoch, .ready values⟩)
    (current : (ledger past).current = some epoch) : r.state.writer = some ⟨some number, values, .none⟩ := by
  have same : epoch = f.epoch := by
    rw [b.current, standing] at current
    split at current
    · exact (Option.some.inj current).symm
    · cases current
  cases t with
  | pushAccepted known =>
    rw [known] at ready
    cases ready
    rfl
  | pushStale known _ stale =>
    rw [known] at ready
    cases ready
    exact absurd same stale

end Entering

/-- **A push counts if its registration does.** When a push comes to the update lock, it has written
nothing. If its registration has been ended by then, it leaves all caches and subscribers alone, then
and later. If its registration is current, it takes the lock, and whatever happens next, what it has
written and what it has yet to write under the lock are its values.

So once an activation has taken the update lock, whatever changes a cache or is owed to anybody is
written by the activation itself or by a push through a callback that had not been handed over by
then. -/
theorem push_counts_if_current {plan : FeedPlan V} {labels : List (FeedLabel V H R)} {f : Feed V H R}
    {es : List (FeedEffect V)} (ran : run Feed.step labels (ofPlan plan) = some (f, es)) :
    let past := trail Feed.step labels (ofPlan plan)
    (∀ number epoch values r, f.push? number = some ⟨number, epoch, .ready values⟩ →
      f.step (.advance (.enter number)) = some r →
      writesBy number (writes past) = [] ∧
      (epoch ∈ (ledger past).ended →
        r.state.gates = f.gates ∧ (∀ signal, owedTo signal r.effects = []) ∧
          ∀ later k es, run Feed.step later r.state = some (k, es) →
            writesBy number (writes (trail Feed.step later r.state)) = [] ∧
              writesBy number (posts (trail Feed.step later r.state)) = []) ∧
      ((ledger past).current = some epoch →
        r.state.writer = some ⟨some number, values, .none⟩ ∧
          ∀ later k es, run Feed.step later r.state = some (k, es) →
            writesBy number (writes (trail Feed.step later r.state)) ++ k.unwritten number = values)) ∧
    (∀ r, f.IsOpening → f.step (.advance .seed) = some r →
      ∀ later k es, run Feed.step later r.state = some (k, es) → ∀ l q, k.step l = some q →
        (q.state.gates ≠ k.gates ∨ ∃ signal, owedTo signal q.effects ≠ []) →
        (l = .advance .write ∨ l = .advance .post) ∧
          ∃ w, k.writer = some w ∧ ∀ number, w.push = some number →
            ∃ epoch, k.push? number = some ⟨number, epoch, .writing⟩ ∧ epoch ∉ (ledger past).given) := by
  intro past
  obtain ⟨orderly, books⟩ := books_of_run ran
  constructor
  · intro number epoch values r ready made
    have t := transition_of_step made
    refine ⟨?_, ?_, ?_⟩
    · by_contra wrote
      exact absurd ((books.written number wrote).le_of_push? ready) (by simp [PushPhase.rank])
    · intro ended
      obtain ⟨gates, silent, through⟩ := t.gives_up orderly books ready ended
      exact ⟨gates, silent, fun later k es onward => (writesBy_of_isThrough onward through).2⟩
    · intro current
      have writing := t.takes_lock books ready current
      refine ⟨writing, ?_⟩
      intro later k es onward
      have given := (t.entered (orderly.numbered _ (mem_of_push? ready).1)).1
      have start : HasWritten number values [] r.state := .inl ⟨_, writing, rfl, given, rfl⟩
      have written := run_remembers (fun h made => h.step (transition_of_step made)) onward [] start
      exact written.unwritten_eq
  · intro r opening made later k ks onward l q next effect
    have t := transition_of_step made
    have fresh : IsFresh f.epoch r.state := by
      cases t with
      | seed =>
        refine ⟨Nat.le_refl _, ?_⟩
        rintro _ _ ⟨⟩ ⟨⟩
    have fresh := fresh.run (orderly.step t) onward
    obtain ⟨made', w, writing⟩ := (transition_of_step next).writing_of_effect effect
    refine ⟨made', w, writing, ?_⟩
    intro number by'
    obtain ⟨epoch, writes, le⟩ := fresh.2 number w writing by'
    refine ⟨epoch, writes, ?_⟩
    intro given
    exact absurd ((books.given epoch given).2 opening) (Nat.not_lt.2 le)

/-- Somebody has the lamp's feed activated, and it pulls nothing. -/
def lampActivation (registration : Nat) : List (FeedLabel Value Unit Unit) :=
  [.enter .activate, .hear (.queried (.ok ())), .advance (.decoded (.ok ⟨[]⟩)), .advance .seed,
    .advance .settle, .hear (.registered (.ok ⟨registration⟩))]

/-- A push that comes through the lamp's first registration is decoded after the second is made. -/
def lampLatePush : List (FeedLabel Value Unit Unit) :=
  lampActivation 1 ++ [.invoke 1 (), .enter .deactivate, .advance .withdraw, .hear (.unregistered (.ok ()))] ++
    lampActivation 2 ++ [.advance (.pushDecoded 0 (.ok ⟨[Lamp.emission true]⟩))]

/-- The lamp's feed is active again, and yet the push is dropped. -/
theorem lamp_ignores_late_push :
    ∃ f es r, run Feed.step lampLatePush (ofPlan Lamp.plan) = some (f, es) ∧ f.registration = some ⟨2⟩ ∧
      f.push? 0 = some ⟨0, 1, .ready [Lamp.emission true]⟩ ∧ f.step (.advance (.enter 0)) = some r ∧
      r.state.gates = f.gates := by
  obtain ⟨f, es, r, ran, active, ready, made⟩ : ∃ f es r,
      run Feed.step lampLatePush (ofPlan Lamp.plan) = some (f, es) ∧ f.registration = some ⟨2⟩ ∧
        f.push? 0 = some ⟨0, 1, .ready [Lamp.emission true]⟩ ∧ f.step (.advance (.enter 0)) = some r :=
    ⟨_, _, _, rfl, rfl, rfl, rfl⟩
  have ended : (ledger (trail Feed.step lampLatePush (ofPlan Lamp.plan))).ended = [1] := rfl
  obtain ⟨-, void, -⟩ := (push_counts_if_current ran).1 0 1 _ r ready made
  exact ⟨f, es, r, ran, active, ready, made, (void (ended ▸ List.mem_singleton_self 1)).1⟩

end LazyHub.Feed
