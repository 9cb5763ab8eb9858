import LazyHub.Proofs.Feed.Pushes

/-!
# A payload is taken whole or not at all

What a decoder emits is looked at as a whole before any of it is written. `Feed.Refuses` says, in
terms of the feed's keys, when and why a payload is refused, and `Feed.Admits` when it is not;
`admissible_eq_error_iff` and `admissible_eq_ok_iff` say that the check does just that.

A pull and a push go the same way with an admitted payload: they keep its values until the update
lock is theirs and write them under the lock. `UpdateSection` is one such stretch under the lock,
`who` being a push or nothing for a pull, and `UpdateSection.applied` is what comes of it, whoever
else makes steps in between.
-/

namespace LazyHub

variable {V H R : Type}

/-- What is known of a decoder that has run: what it emitted, provided it succeeded. -/
def Emissions.outcome (out : Emissions V) (result : Except DecodeFailure Unit) :
    Except DecodeFailure (Emissions V) := result.map fun _ => out

namespace Feed

variable [SignalValue V]

/-- A value may be written: its signal is the feed's, and it has the signal's type. -/
def Fits (f : Feed V H R) (e : Emission V) : Prop :=
  ∃ o, f.outlet? e.signal = some o ∧ SignalValue.typeOf e.value = o.key.type

/-- A value may not be written, and this is why. -/
def Offends (f : Feed V H R) (e : Emission V) (failure : DecodeFailure) : Prop :=
  f.outlet? e.signal = none ∧ failure = .foreignSignal e.signal ∨
    ∃ o, f.outlet? e.signal = some o ∧ SignalValue.typeOf e.value ≠ o.key.type ∧
      failure = .wrongType e.signal o.key.type

/-- A payload is refused, and this is why: its decoder failed, or the first of the values emitted
that may not be written decides. -/
def Refuses (f : Feed V H R) (out : Emissions V) (result : Except DecodeFailure Unit)
    (failure : DecodeFailure) : Prop :=
  result = .error failure ∨
    result = .ok () ∧ ∃ before e after, out.toList = before ++ e :: after ∧ (∀ x ∈ before, f.Fits x) ∧
      f.Offends e failure

/-- A payload is admitted: its decoder succeeded, and every value may be written. -/
def Admits (f : Feed V H R) (out : Emissions V) (result : Except DecodeFailure Unit) : Prop :=
  result = .ok () ∧ ∀ e ∈ out.toList, f.Fits e

/-! ### The check -/

theorem check_eq_ok_iff {f : Feed V H R} {es : List (Emission V)} :
    f.check es = .ok () ↔ ∀ e ∈ es, f.Fits e := by
  induction es with
  | nil => simp [check]
  | cons e rest ih =>
    cases ho : f.outlet? e.signal with
    | none => simp [check, Fits, ho]
    | some o =>
      by_cases fits : SignalValue.typeOf e.value = o.key.type
      · simp [check, Fits, ho, Outlet.accepts, fits, ih]
      · simp [check, Fits, ho, Outlet.accepts, fits]

theorem check_eq_error_iff {f : Feed V H R} {es : List (Emission V)} {failure : DecodeFailure} :
    f.check es = .error failure ↔
      ∃ before e after, es = before ++ e :: after ∧ (∀ x ∈ before, f.Fits x) ∧ f.Offends e failure := by
  induction es with
  | nil => simp [check]
  | cons e rest ih =>
    -- a value that fits moves the question on to the rest, one that offends answers it
    have onward : f.Fits e → f.check (e :: rest) = f.check rest := by
      rintro ⟨o, ho, fits⟩
      simp [check, ho, Outlet.accepts, fits]
    have stop : ∀ g, f.Offends e g → f.check (e :: rest) = .error g := by
      rintro g (⟨ho, rfl⟩ | ⟨o, ho, other, rfl⟩)
      · simp [check, ho]
      · simp [check, ho, Outlet.accepts, other]
    have apart : ∀ g, f.Offends e g → ¬ f.Fits e := by
      rintro g (⟨ho, -⟩ | ⟨o, ho, other, -⟩) ⟨o', ho', fits⟩
      · rw [ho] at ho'
        cases ho'
      · rw [ho] at ho'
        cases ho'
        exact other fits
    have either : f.Fits e ∨ ∃ g, f.Offends e g := by
      cases ho : f.outlet? e.signal with
      | none => exact .inr ⟨_, .inl ⟨ho, rfl⟩⟩
      | some o =>
        by_cases fits : SignalValue.typeOf e.value = o.key.type
        · exact .inl ⟨o, ho, fits⟩
        · exact .inr ⟨_, .inr ⟨o, ho, fits, rfl⟩⟩
    constructor
    · intro h
      rcases either with fits | ⟨g, offends⟩
      · rw [onward fits, ih] at h
        obtain ⟨before, x, after, rfl, fine, offends⟩ := h
        exact ⟨e :: before, x, after, rfl, List.forall_mem_cons.2 ⟨fits, fine⟩, offends⟩
      · rw [stop g offends] at h
        cases h
        exact ⟨[], e, rest, rfl, nofun, offends⟩
    · rintro ⟨before, x, after, eq, fine, offends⟩
      cases before with
      | nil =>
        obtain ⟨rfl, rfl⟩ := List.cons_eq_cons.1 eq
        exact stop _ offends
      | cons y before =>
        obtain ⟨rfl, rfl⟩ := List.cons_eq_cons.1 eq
        rw [onward (fine _ List.mem_cons_self), ih]
        exact ⟨before, x, after, rfl, fun z hz => fine z (List.mem_cons_of_mem _ hz), offends⟩

theorem admissible_eq_ok_iff {f : Feed V H R} {out : Emissions V} {result : Except DecodeFailure Unit}
    {values : List (Emission V)} :
    f.admissible (out.outcome result) = .ok values ↔ f.Admits out result ∧ values = out.toList := by
  cases result with
  | error failure => simp [admissible, Emissions.outcome, Except.map, Admits]
  | ok _ =>
    rw [Admits, ← check_eq_ok_iff]
    cases h : f.check out.toList with
    | error failure => simp [admissible, Emissions.outcome, Except.map, h]
    | ok _ => simp [admissible, Emissions.outcome, Except.map, h, eq_comm]

theorem admissible_eq_error_iff {f : Feed V H R} {out : Emissions V} {result : Except DecodeFailure Unit}
    {failure : DecodeFailure} :
    f.admissible (out.outcome result) = .error failure ↔ f.Refuses out result failure := by
  cases result with
  | error failure' => simp [admissible, Emissions.outcome, Except.map, Refuses]
  | ok _ =>
    rw [Refuses, ← check_eq_error_iff]
    cases h : f.check out.toList with
    | error failure' => simp [admissible, Emissions.outcome, Except.map, h]
    | ok _ => simp [admissible, Emissions.outcome, Except.map, h]

/-! ### From the decoder to the update lock -/

/-- A payload is with its decoder, for a push or for a pull. -/
def IsDecoding (f : Feed V H R) : Option Nat → Prop
  | none => ∃ purpose payload, f.holder = some (.decoding purpose payload)
  | some number => ∃ epoch payload, f.push? number = some ⟨number, epoch, .decoding payload⟩

/-- The decoder is heard from. -/
def hearsFrom (outcome : Except DecodeFailure (Emissions V)) : Option Nat → FeedLabel V H R
  | none => .advance (.decoded outcome)
  | some number => .advance (.pushDecoded number outcome)

/-- Decoded values wait for the update lock. -/
def Waits (f : Feed V H R) (values : List (Emission V)) : Option Nat → Prop
  | none => ∃ purpose, f.holder = some (.seeding purpose values)
  | some number => ∃ epoch, f.push? number = some ⟨number, epoch, .ready values⟩

/-- The update lock is asked for. -/
def takesLock : Option Nat → FeedLabel V H R
  | none => .advance .seed
  | some number => .advance (.enter number)

/-- Values that wait for the update lock do so until they are taken there. -/
theorem Transition.waits {f : Feed V H R} {l : FeedLabel V H R} {r : Result V H R} (t : f.Transition l r)
    (h : f.Orderly) {values : List (Emission V)} {who : Option Nat} (waits : f.Waits values who)
    (other : l ≠ takesLock who) : r.state.Waits values who := by
  cases who with
  | none =>
    obtain ⟨purpose, held⟩ := waits
    cases t with
    | activate free | deactivate free | refresh free | subscribe free | detachLast free | shutdown free
    | dropLast _ _ free =>
      rw [free] at held
      cases held
    | queryFailed held' | queried held' | registerFailed held' | subscribed held' | activated held'
    | unregistered held' | decodeFailed held' | decoded held' | clear held' | cleared held'
    | clearedInactive held' | withdraw held' | settleRefresh held' | settle held' =>
      rw [held'] at held
      cases held
    | seed => exact absurd rfl other
    | retire retiring =>
      have unpulled := h.handled (Nat.add_eq_zero_iff.1 (h.unowned retiring)).1
      rw [pull?, held] at unpulled
      cases unpulled
    | _ => exact ⟨purpose, held⟩
  | some number =>
    obtain ⟨epoch, ready⟩ := waits
    refine ⟨epoch, (t.push?_eq h ready).resolve_right ?_⟩
    rintro (⟨⟨payload, eq⟩, -⟩ | ⟨-, eq⟩ | ⟨eq, -⟩ | ⟨eq, -⟩)
    · cases eq
    · exact other eq
    · cases eq
    · cases eq

theorem waits_of_run {labels : List (FeedLabel V H R)} {f g : Feed V H R} {es : List (FeedEffect V)}
    (ran : run Feed.step labels f = some (g, es)) (h : f.Orderly) {values : List (Emission V)}
    {who : Option Nat} (waits : f.Waits values who) (other : takesLock who ∉ labels) : g.Waits values who := by
  have kept : ∀ l ∈ labels, ∀ {s r}, s.Orderly ∧ s.Waits values who → Feed.step s l = some r →
      r.state.Orderly ∧ r.state.Waits values who := by
    rintro l hl s r ⟨orderly, waits⟩ made
    have t := transition_of_step made
    exact ⟨orderly.step t, t.waits orderly waits fun eq => other (eq ▸ hl)⟩
  exact (run_keeps kept ran ⟨h, waits⟩).2

/-! ### Under the update lock -/

/-- One stretch under the update lock: it is asked for and given, any steps follow, among them the
writes, and it is let go of. A push is given the lock only in the epoch of its callback. -/
structure UpdateSection (who : Option Nat) (g : Feed V H R) (during : List (FeedLabel V H R))
    (k : Feed V H R) (es : List (FeedEffect V)) : Prop where
  /-- The steps are made. -/
  ran : run Feed.step (takesLock who :: (during ++ [.advance .settle])) g = some (k, es)
  /-- The lock is held all the while. -/
  held : .advance .settle ∉ during
  /-- A push is of the current epoch. -/
  current : ∀ number, who = some number → ∃ p, g.push? number = some p ∧ p.epoch = g.epoch

/-- What is written in one stretch under the update lock. -/
def sectionWrites (who : Option Nat) (g : Feed V H R) (during : List (FeedLabel V H R)) : List (Write V) :=
  writes (trail Feed.step (takesLock who :: (during ++ [.advance .settle])) g)

/-- What is found out in one stretch under the update lock about who is to be told. -/
def sectionLooks (who : Option Nat) (g : Feed V H R) (during : List (FeedLabel V H R)) : List (Look V) :=
  looks (trail Feed.step (takesLock who :: (during ++ [.advance .settle])) g)

/-- **Values are applied**: what comes of one stretch under the update lock. -/
structure Applied (who : Option Nat) (values : List (Emission V)) (g : Feed V H R)
    (during : List (FeedLabel V H R)) (k : Feed V H R) (es : List (FeedEffect V)) : Prop where
  /-- All the values are written, in order, and nothing else is. -/
  written : (sectionWrites who g during).map (fun w => (w.push, w.emission)) = values.map (who, ·)
  /-- Every cache has been through the values for its signal. -/
  caches : ∀ signal, k.cached? signal = (g.cached? signal).map (settled · (valuesFor signal values))
  /-- So it holds the last one, or what counts as the same. -/
  latest : ∀ signal v x, g.cached? signal = some v → (valuesFor signal values).getLast? = some x →
    ∃ w, k.cached? signal = some w ∧ (w = x ∨ SignalValue.same w x)
  /-- A cache for whose signal there is no value is left alone. -/
  untouched : ∀ signal, valuesFor signal values = [] → k.cached? signal = g.cached? signal
  /-- A pull owes nobody anything. -/
  silent : who = none → ∀ signal, owedTo signal es = []
  /-- A push looks for each change, in order, whether anyone is subscribed. -/
  looked : ∀ signal v, who ≠ none → g.cached? signal = some v →
    valuesFor signal ((sectionLooks who g during).map (·.emission)) = changes v (valuesFor signal values)
  /-- It owes the change to those it finds. -/
  told : ∀ signal, owedTo signal es = valuesFor signal (found (sectionLooks who g during))
  /-- So all changes are owed, one for one, if somebody is subscribed all the while. -/
  watched : ∀ signal v, who ≠ none → g.cached? signal = some v →
    (∀ m ∈ trail Feed.step (takesLock who :: (during ++ [.advance .settle])) g,
      m.before.isWatched signal) →
    owedTo signal es = changes v (valuesFor signal values)

/-- The update lock is given to those whose values wait for it, if it is free. -/
theorem step_takesLock {g : Feed V H R} {who : Option Nat} {values : List (Emission V)}
    (waits : g.Waits values who) (free : g.writer = none)
    (current : ∀ number, who = some number → ∃ p, g.push? number = some p ∧ p.epoch = g.epoch) :
    ∃ r, g.step (takesLock who) = some r ∧
      (who = none → ∃ purpose, r.state.holder = some (.writing purpose)) := by
  cases who with
  | none =>
    obtain ⟨purpose, held⟩ := waits
    exact ⟨{ state := { g with holder := some (.writing purpose), writer := some ⟨none, values, .none⟩ } },
      by simp [takesLock, Feed.step, advance, held, free], fun _ => ⟨purpose, rfl⟩⟩
  | some number =>
    obtain ⟨epoch, ready⟩ := waits
    obtain ⟨p, known, current⟩ := current number rfl
    obtain rfl : p = ⟨number, epoch, .ready values⟩ := by simpa [ready] using known.symm
    exact ⟨{ state := { g.setPhase number .writing with writer := some ⟨some number, values, .none⟩ } },
      by simp [takesLock, Feed.step, advance, ready, free, show epoch = g.epoch from current],
      fun pulls => by cases pulls⟩

/-- Under the lock are the values that waited for it. -/
theorem writer_of_takesLock {g : Feed V H R} {who : Option Nat} {values : List (Emission V)}
    {r : Result V H R} (made : g.step (takesLock who) = some r) (waits : g.Waits values who)
    (current : ∀ number, who = some number → ∃ p, g.push? number = some p ∧ p.epoch = g.epoch) :
    r.state.writer = some ⟨who, values, .none⟩ := by
  have t := transition_of_step made
  cases who with
  | none =>
    obtain ⟨purpose, held⟩ := waits
    cases t with
    | seed held' =>
      rw [held'] at held
      cases held
      rfl
  | some number =>
    obtain ⟨epoch, ready⟩ := waits
    obtain ⟨p, known, current⟩ := current number rfl
    obtain rfl : p = ⟨number, epoch, .ready values⟩ := by simpa [ready] using known.symm
    cases t with
    | pushAccepted known' =>
      rw [known'] at ready
      cases ready
      rfl
    | pushStale known' _ stale =>
      rw [known'] at ready
      cases ready
      exact absurd current stale

/-- Whoever holds the update lock can write all its values, and be done with every change. -/
theorem exists_run_write {f : Feed V H R} {w : Writer V} (writing : f.writer = some w) :
    ∃ labels k es, run Feed.step labels f = some (k, es) ∧ .advance .settle ∉ labels ∧
      k.writer = some ⟨w.push, [], .none⟩ ∧ k.holder = f.holder := by
  induction left : w.left using Nat.strong_induction_on generalizing f w with
  | _ n ih =>
    by_cases done : w.left = 0
    · exact ⟨[], f, [], rfl, nofun, writing.trans (congrArg some (Writer.eq_of_left done)), rfl⟩
    · obtain ⟨move, r, w', other, made, writing', push, less, held⟩ := exists_step_of_writer writing done
      obtain ⟨labels, k, es, ran, unsettled, ended, held'⟩ := ih _ (left ▸ less) writing' rfl
      refine ⟨.advance move :: labels, k, r.effects ++ es, run_cons.2 ⟨r, es, made, ran, rfl⟩, ?_,
        push ▸ ended, held'.trans held⟩
      simp [unsettled, Ne.symm other]

/-- Whoever is given the update lock can write all its values and let go of the lock. -/
theorem exists_updateSection {g : Feed V H R} {who : Option Nat} {values : List (Emission V)}
    (waits : g.Waits values who) (free : g.writer = none)
    (current : ∀ number, who = some number → ∃ p, g.push? number = some p ∧ p.epoch = g.epoch) :
    ∃ during k es, g.UpdateSection who during k es := by
  obtain ⟨r, made, held⟩ := step_takesLock waits free current
  obtain ⟨during, u, es, ran, unsettled, done, held'⟩ := exists_run_write (writer_of_takesLock made waits current)
  obtain ⟨q, settled⟩ : ∃ q, u.step (.advance .settle) = some q := by
    cases who with
    | some number => exact ⟨_, by simp only [Feed.step, advance, done, settleWriter]; rfl⟩
    | none =>
      obtain ⟨purpose, held⟩ := held rfl
      cases purpose <;>
        exact ⟨_, by simp only [Feed.step, advance, done, settleWriter, held', held]; rfl⟩
  refine ⟨during, q.state, r.effects ++ (es ++ q.effects), ?_, unsettled, current⟩
  exact run_cons.2 ⟨r, _, made, run_append.2 ⟨u, es, _, ran, run_singleton settled, rfl⟩, rfl⟩

/-- Under the update lock just the values that waited for it are written. -/
theorem UpdateSection.written {g k : Feed V H R} {who : Option Nat} {values : List (Emission V)}
    {during : List (FeedLabel V H R)} {es : List (FeedEffect V)} (s : g.UpdateSection who during k es)
    (waits : g.Waits values who) :
    (sectionWrites who g during).map (fun w => (w.push, w.emission)) = values.map (who, ·) := by
  obtain ⟨r, later, made, onward, -⟩ := run_cons.1 s.ran
  obtain ⟨u, before, after, ran, last, -⟩ := run_append.1 onward
  have writing := writer_of_takesLock made waits s.current
  obtain ⟨done, rest, news, rfl, writing, wrote⟩ := writes_of_writing ran writing s.held
  obtain ⟨q, -, settles, -, -⟩ := run_cons.1 last
  -- the lock is let go of only when there is nothing left to write
  obtain rfl : rest = [] := by
    cases transition_of_step settles with
    | settlePush writing' | settleRefresh _ writing' | settle _ _ writing' =>
      rw [writing'] at writing
      cases writing
      rfl
  have first : g.write? (takesLock who) = none := by cases who <;> rfl
  have final : u.write? (.advance .settle) = none := rfl
  rw [sectionWrites, trail_cons made, writes_cons, first, trail_append ran, trail_cons settles,
    writes_append, writes_cons]
  simpa [final] using wrote

/-- The update lock is free before one stretch under it, and after. -/
theorem UpdateSection.free {g k : Feed V H R} {who : Option Nat} {during : List (FeedLabel V H R)}
    {es : List (FeedEffect V)} (s : g.UpdateSection who during k es) : g.writer = none ∧ k.writer = none := by
  obtain ⟨r, later, made, onward, -⟩ := run_cons.1 s.ran
  obtain ⟨u, before, after, -, last, -⟩ := run_append.1 onward
  obtain ⟨q, _, settles, ended, -⟩ := run_cons.1 last
  cases ended
  constructor
  · cases who with
    | none =>
      cases transition_of_step made with
      | seed _ free => exact free
    | some number =>
      cases transition_of_step made with
      | pushAccepted _ free | pushStale _ free => exact free
  · cases transition_of_step settles <;> rfl

/-- **Under the update lock the values that waited for it are applied**, all of them. -/
theorem UpdateSection.applied {g k : Feed V H R} {who : Option Nat} {values : List (Emission V)}
    {during : List (FeedLabel V H R)} {es : List (FeedEffect V)} (s : g.UpdateSection who during k es)
    (waits : g.Waits values who) : g.Applied who values during k es := by
  have written := s.written waits
  have emissions : (sectionWrites who g during).map (·.emission) = values := by
    have := congrArg (List.map Prod.snd) written
    simpa [Function.comp_def] using this
  have writer : ∀ w ∈ sectionWrites who g during, w.push = who := by
    intro w hw
    have mem := List.mem_map_of_mem (f := fun w => (w.push, w.emission)) hw
    rw [written] at mem
    obtain ⟨e, -, eq⟩ := List.mem_map.1 mem
    exact (congrArg Prod.fst eq).symm
  have caches : ∀ signal, k.cached? signal = (g.cached? signal).map (settled · (valuesFor signal values)) := by
    intro signal
    have := cached?_of_run s.ran signal
    rwa [← sectionWrites, emissions] at this
  -- at both ends of the section nothing is left to be looked after or posted
  obtain ⟨before, after⟩ := s.free
  have seen := seen_of_run s.ran
  rw [(news_of_free before).1, (news_of_free after).1, List.nil_append, List.append_nil, ← sectionLooks] at seen
  have posted := posted_of_run s.ran
  rw [(news_of_free before).2, (news_of_free after).2, List.nil_append, List.append_nil, ← sectionLooks] at posted
  have told : ∀ signal, owedTo signal es = valuesFor signal (found (sectionLooks who g during)) := fun signal => by
    rw [owedTo_of_run s.ran signal, ← posted]
  have looked : ∀ signal v, who ≠ none → g.cached? signal = some v →
      valuesFor signal ((sectionLooks who g during).map (·.emission)) = changes v (valuesFor signal values) := by
    intro signal v pushed known
    rw [← seen, changesIn_of_run s.ran known, ← sectionWrites, notices_eq_changes, map_fst_offers, emissions]
    intro p hp
    obtain ⟨w, hw, -, eq⟩ := mem_offers hp
    rw [eq, writer w hw, Option.isSome_iff_ne_none.2 pushed]
  refine ⟨written, caches, ?_, ?_, ?_, looked, told, ?_⟩
  · intro signal v x known last
    obtain ⟨xs, eq⟩ := List.getLast?_eq_some_iff.1 last
    rw [caches, known, eq]
    exact ⟨_, rfl, settled_concat v xs x⟩
  · intro signal none
    rw [caches, none]
    simp
  · rintro rfl signal
    have unchanged := changesIn_eq_nil writer
    rw [seen, List.map_eq_nil_iff] at unchanged
    rw [told, unchanged]
    rfl
  · intro signal v pushed known watched
    rw [told, ← looked signal v pushed known]
    refine valuesFor_found fun w hw named => ?_
    obtain ⟨m, hm, seen⟩ := List.mem_filterMap.1 hw
    rw [watched_of_look? seen, named]
    exact watched m hm

/-! ### The whole way of a payload -/

/-- **A payload is refused**: what comes of hearing so from its decoder. -/
structure Refused (who : Option Nat) (failure : DecodeFailure) (f : Feed V H R) (r : Result V H R) :
    Prop where
  /-- No cache changes. -/
  gates : r.state.gates = f.gates
  /-- Nobody is owed anything. -/
  silent : ∀ signal, owedTo signal r.effects = []
  /-- A pull is over, and its caller is told why. -/
  pulled : who = none → r.state.holder = none ∧ r.answer = some (.failed (.decodeFailed f.kind failure))
  /-- A push tells nobody but the journal. -/
  pushed : ∀ number, who = some number →
    r.answer = none ∧ r.effects = [.noted (.undecodable f.kind failure), .released]
  /-- A push writes and posts nothing later on. -/
  never : ∀ number, who = some number → ∀ labels k es, run Feed.step labels r.state = some (k, es) →
    writesBy number (writes (trail Feed.step labels r.state)) = [] ∧
      writesBy number (posts (trail Feed.step labels r.state)) = []

theorem refused_of_refuses {f : Feed V H R} (h : f.Orderly) {who : Option Nat} (decoding : f.IsDecoding who)
    {out : Emissions V} {result : Except DecodeFailure Unit} {failure : DecodeFailure}
    (refuses : f.Refuses out result failure) :
    ∃ r, f.step (hearsFrom (out.outcome result) who) = some r ∧ f.Refused who failure r := by
  have refused := admissible_eq_error_iff.2 refuses
  cases who with
  | none =>
    obtain ⟨purpose, payload, held⟩ := decoding
    refine ⟨f.release (.failed (.decodeFailed f.kind failure)) [.released],
      by simp [hearsFrom, Feed.step, advance, held, refused], ?_⟩
    refine ⟨rfl, fun _ => rfl, fun _ => ⟨rfl, rfl⟩, ?_, ?_⟩
    all_goals
      intro _ pushes
      cases pushes
  | some number =>
    obtain ⟨epoch, payload, known⟩ := decoding
    obtain ⟨mem, -⟩ := mem_of_push? known
    have through : (f.setPhase number .leaving).IsThrough number := by
      refine ⟨reaches_setPhase .leaving (h.numbered _ mem), ?_⟩
      intro w writing by'
      exact absurd ((h.locked number w writing by').1.le_of_push? known) (by simp [PushPhase.rank])
    refine ⟨{ state := f.setPhase number .leaving
              effects := [.noted (.undecodable f.kind failure), .released] },
      by simp [hearsFrom, Feed.step, advance, known, refused], ?_⟩
    refine ⟨rfl, fun _ => rfl, (fun pulls => by cases pulls), ?_, ?_⟩
    · rintro _ ⟨⟩
      exact ⟨rfl, rfl⟩
    · rintro _ ⟨⟩ labels k es ran
      exact (writesBy_of_isThrough ran through).2

theorem waits_of_admits {f : Feed V H R} {who : Option Nat} (decoding : f.IsDecoding who)
    {out : Emissions V} {result : Except DecodeFailure Unit} (admits : f.Admits out result) :
    ∃ r, f.step (hearsFrom (out.outcome result) who) = some r ∧ r.state.Waits out.toList who := by
  have admitted := admissible_eq_ok_iff.2 ⟨admits, rfl⟩
  cases who with
  | none =>
    obtain ⟨purpose, payload, held⟩ := decoding
    exact ⟨{ state := { f with holder := some (.seeding purpose out.toList) }, effects := [.released] },
      by simp [hearsFrom, Feed.step, advance, held, admitted], purpose, rfl⟩
  | some number =>
    obtain ⟨epoch, payload, known⟩ := decoding
    refine ⟨{ state := f.setPhase number (.ready out.toList), effects := [.released] },
      by simp [hearsFrom, Feed.step, advance, known, admitted], epoch, ?_⟩
    exact push?_setPhase_self _ known

theorem admits_of_not_refuses {f : Feed V H R} {out : Emissions V} {result : Except DecodeFailure Unit}
    (unrefused : ∀ failure, ¬ f.Refuses out result failure) : f.Admits out result := by
  cases h : f.admissible (out.outcome result) with
  | error failure => exact absurd (admissible_eq_error_iff.1 h) (unrefused failure)
  | ok values => exact (admissible_eq_ok_iff.1 h).1

/-- **A payload is taken whole or not at all**, and by pull and push alike. Whatever its decoder emits,
the payload is refused, with the decoder's failure or that of the first value that may not be written;
or it is not, and then, when the update lock can be had, it comes to be applied, to the same effect on
the caches whoever applies it. -/
theorem payload_whole_or_nothing {plan : FeedPlan V} {past : List (FeedLabel V H R)} {f : Feed V H R}
    {fx : List (FeedEffect V)} (came : run Feed.step past (ofPlan plan) = some (f, fx)) {who : Option Nat}
    (decoding : f.IsDecoding who) (out : Emissions V) (result : Except DecodeFailure Unit) :
    (∀ failure, f.Refuses out result failure →
      ∃ r, f.step (hearsFrom (out.outcome result) who) = some r ∧ f.Refused who failure r) ∧
    ((∀ failure, ¬ f.Refuses out result failure) →
      ∃ r, f.step (hearsFrom (out.outcome result) who) = some r ∧ r.state.gates = f.gates ∧
        (∀ signal, owedTo signal r.effects = []) ∧
        ∀ before g gx, run Feed.step before r.state = some (g, gx) → takesLock who ∉ before →
          (g.writer = none →
            (∀ number, who = some number → ∃ p, g.push? number = some p ∧ p.epoch = g.epoch) →
            ∃ during k es, g.UpdateSection who during k es) ∧
          ∀ during k es, g.UpdateSection who during k es →
            g.Applied who out.toList during k es ∧
            ∀ other g' during' k' es', g'.Waits out.toList other →
              UpdateSection (H := H) (R := R) other g' during' k' es' →
              (∀ signal, g'.cached? signal = g.cached? signal) →
              ∀ signal, k'.cached? signal = k.cached? signal) := by
  have orderly := (orderly_ofPlan plan).run came
  refine ⟨fun failure => refused_of_refuses orderly decoding, ?_⟩
  intro unrefused
  obtain ⟨r, made, waits⟩ := waits_of_admits decoding (admits_of_not_refuses unrefused)
  have t := transition_of_step made
  have unwritten : hearsFrom (out.outcome result) who ≠ (.advance .write : FeedLabel V H R) := by
    cases who <;> nofun
  have unposted : hearsFrom (out.outcome result) who ≠ (.advance .post : FeedLabel V H R) := by
    cases who <;> nofun
  refine ⟨r, made, t.gates_eq unwritten, t.owedTo_eq_nil unposted, ?_⟩
  intro before g gx ran other
  have waits := waits_of_run ran (orderly.step t) waits other
  refine ⟨exists_updateSection waits, ?_⟩
  intro during k es s
  have applied := s.applied waits
  refine ⟨applied, ?_⟩
  intro other g' during' k' es' waits' s' same signal
  rw [applied.caches, (s'.applied waits').caches, same]

/-- A lamp whose payload is with the decoder, for a read. -/
def lampRead : Feed Value Unit Unit := { ofPlan Lamp.plan with holder := some (.decoding .refresh ()) }

/-- A payload for the lamp that also has a value for a signal unknown to it is refused for that
value, and the lamp stays dark. -/
theorem lamp_stays_dark :
    let out : Emissions Value := ⟨[Lamp.emission true, ⟨⟨2⟩, .word 5⟩]⟩
    ∃ r, lampRead.step (.advance (.decoded (.ok out))) = some r ∧ r.state.gates = [.ofInitial (.truth false)] ∧
      r.answer = some (.failed (.decodeFailed Lamp.plan.kind (.foreignSignal ⟨2⟩))) := by
  intro out
  have came : run Feed.step [.enter .refresh, .hear (.queried (.ok ()))] (ofPlan Lamp.plan) =
      some (lampRead, [.asked .query]) := rfl
  have decoding : lampRead.IsDecoding none := ⟨.refresh, (), rfl⟩
  have refuses : lampRead.Refuses out (.ok ()) (.foreignSignal ⟨2⟩) := by
    refine .inr ⟨rfl, [Lamp.emission true], ⟨⟨2⟩, .word 5⟩, [], rfl, ?_, .inl ⟨rfl, rfl⟩⟩
    simp only [List.mem_singleton, forall_eq]
    exact ⟨_, rfl, rfl⟩
  obtain ⟨r, made, refused⟩ := (payload_whole_or_nothing came decoding out (.ok ())).1 _ refuses
  exact ⟨r, made, refused.gates, (refused.pulled rfl).2⟩

end Feed

end LazyHub
