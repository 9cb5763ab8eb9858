import LazyHub.Proofs.Feed.Pulls

/-!
# Pulls come to an end

Whoever pulls waits for the provider, for the decoder, and for a push that is being written. As long as the
provider answers, an operation that pulls can be brought to its end from wherever it is, by steps of what is
under way in the feed alone (`canFinish_of_pull`); and it makes no difference what the provider answers and
what the decoder makes of it.
-/

namespace LazyHub

variable {V H R : Type}

/-- The steps of what is under way in a feed whose provider gives certain answers. -/
def FeedLabel.IsInner (answers : ProviderReply R → Prop) : FeedLabel V H R → Prop
  | .hear reply => answers reply
  | .advance _ => True
  | _ => False

namespace Feed

variable [SignalValue V] {p : ProviderReply R → Prop} {f : Feed V H R} {purpose : Purpose H}

/-- What is under way in the feed can be brought to an end by a provider that gives certain answers. -/
def CanFinish (p : ProviderReply R → Prop) (f : Feed V H R) : Prop :=
  ∃ own g es a, (∀ l ∈ own, l.IsInner p) ∧ Finishes f own g es a

omit [SignalValue V] in
theorem inner_cons {l : FeedLabel V H R} {own : List (FeedLabel V H R)} (first : l.IsInner p)
    (rest : ∀ l ∈ own, l.IsInner p) : ∀ x ∈ l :: own, x.IsInner p := List.forall_mem_cons.2 ⟨first, rest⟩

theorem CanFinish.of_step {l : FeedLabel V H R} {r : Result V H R} (made : f.step l = some r)
    (inner : l.IsInner p) (busy : r.state.holder ≠ none) (h : r.state.CanFinish p) : f.CanFinish p := by
  obtain ⟨own, g, es, a, inner', fin⟩ := h
  exact ⟨l :: own, g, _, a, inner_cons inner inner', .more made busy fin⟩

theorem CanFinish.of_last {l : FeedLabel V H R} {r : Result V H R} {a : Answer} (made : f.step l = some r)
    (inner : l.IsInner p) (free : r.state.holder = none) (answered : r.answer = some a) : f.CanFinish p :=
  ⟨[l], r.state, _, a, by simpa using inner, .last made free answered⟩

/-- Whoever holds the update lock writes its values, and while the state lock is held nothing keeps it from
doing so. -/
theorem canFinish_of_written {w : Writer V} (writing : f.writer = some w) (busy : f.holder ≠ none)
    (h : ∀ {g : Feed V H R}, g.writer = some ⟨w.push, [], .none⟩ → g.holder = f.holder → g.CanFinish p) :
    f.CanFinish p := by
  induction left : w.left using Nat.strong_induction_on generalizing f w with
  | _ n ih =>
    by_cases done : w.left = 0
    · exact h (writing.trans (congrArg some (Writer.eq_of_left done))) rfl
    · obtain ⟨move, r, w', -, made, writing', push, less, held⟩ := exists_step_of_writer writing done
      refine .of_step made trivial (held ▸ busy) (ih _ (left ▸ less) writing' (held ▸ busy) ?_ rfl)
      exact fun ended same => h (push ▸ ended) (same.trans held)

theorem canFinish_of_registering (held : f.holder = some (.registering purpose))
    (registered : ∃ answer, p (.registered answer)) : f.CanFinish p := by
  obtain ⟨answer, given⟩ := registered
  obtain ⟨r, a, made, free, answered⟩ : ∃ r a, f.step (.hear (.registered answer)) = some r ∧
      r.state.holder = none ∧ r.answer = some a := by
    cases answer with
    | error failure => exact ⟨_, _, by simp only [Feed.step, hear, held]; rfl, rfl, rfl⟩
    | ok registration => cases purpose <;> exact ⟨_, _, by simp only [Feed.step, hear, held]; rfl, rfl, rfl⟩
  exact .of_last made given free answered

theorem canFinish_of_writing {values : List (Emission V)} (held : f.holder = some (.writing purpose))
    (writing : f.writer = some ⟨none, values, .none⟩) (registered : ∃ answer, p (.registered answer)) :
    f.CanFinish p := by
  refine canFinish_of_written writing (by simp [held]) fun {g} writing' same => ?_
  by_cases alone : purpose = .refresh
  · subst alone
    exact .of_last (l := .advance .settle)
      (by simp only [Feed.step, advance, writing', settleWriter, same.trans held]; rfl) trivial rfl rfl
  · obtain ⟨r, made, held'⟩ : ∃ r, g.step (.advance .settle) = some r ∧
        r.state.holder = some (.registering purpose) := by
      cases purpose with
      | refresh => exact absurd rfl alone
      | activate | subscribe =>
        exact ⟨_, by simp only [Feed.step, advance, writing', settleWriter, same.trans held]; rfl, rfl⟩
    exact .of_step made trivial (by simp [held']) (canFinish_of_registering held' registered)

theorem canFinish_of_seeding (o : f.Orderly) {values : List (Emission V)} (held : f.holder = some (.seeding purpose values))
    (registered : ∃ answer, p (.registered answer)) : f.CanFinish p := by
  have seeds : ∀ {g : Feed V H R}, g.writer = none → g.holder = f.holder → g.CanFinish p := by
    intro g unheld same
    obtain ⟨r, made, held', writing⟩ : ∃ r, g.step (.advance .seed) = some r ∧
        r.state.holder = some (.writing purpose) ∧ r.state.writer = some ⟨none, values, .none⟩ :=
      ⟨_, by simp only [Feed.step, advance, same.trans held, unheld]; rfl, rfl, rfl⟩
    exact .of_step made trivial (by simp [held']) (canFinish_of_writing held' writing registered)
  cases writing : f.writer with
  | none => exact seeds writing rfl
  | some writer =>
    cases push : writer.push with
    | none =>
      obtain ⟨purpose', held'⟩ := o.pulled writer writing push
      cases held.symm.trans held'
    | some number =>
      refine canFinish_of_written writing (by simp [held]) fun {g} writing' same => ?_
      rw [push] at writing'
      refine .of_step (l := .advance .settle) (by simp only [Feed.step, advance, writing', settleWriter]; rfl) trivial
        ?_ (seeds rfl same)
      change g.holder ≠ none
      simp [same, held]

/-- Whatever the decoder makes of the payload, the pull can be finished after that. -/
theorem canFinish_of_decoding (o : f.Orderly) {payload : R} (held : f.holder = some (.decoding purpose payload))
    (registered : ∃ answer, p (.registered answer)) (outcome : Except DecodeFailure (Emissions V)) :
    ∃ rest g es a, (∀ l ∈ rest, l.IsInner p) ∧ Finishes f (.advance (.decoded outcome) :: rest) g es a := by
  cases verdict : f.admissible outcome with
  | error failure =>
    exact ⟨[], _, _, _, nofun, .last (by simp only [Feed.step, advance, held, verdict]; rfl) rfl rfl⟩
  | ok values =>
    obtain ⟨r, made, held'⟩ : ∃ r, f.step (.advance (.decoded outcome)) = some r ∧
        r.state.holder = some (.seeding purpose values) :=
      ⟨_, by simp only [Feed.step, advance, held, verdict]; rfl, rfl⟩
    obtain ⟨own, g, es, a, inner, fin⟩ :=
      canFinish_of_seeding (o.step (transition_of_step made)) held' registered
    exact ⟨own, g, _, a, inner, .more made (by simp [held']) fin⟩

/-- Whatever the provider answers and the decoder makes of it, the pull can be finished after that. -/
theorem canFinish_of_querying (o : f.Orderly) (held : f.holder = some (.querying purpose))
    (registered : ∃ answer, p (.registered answer)) (answer : Except ProviderFailure R)
    (outcome : Except DecodeFailure (Emissions V)) :
    ∃ rest g es a, (∀ l ∈ rest, l.IsInner p) ∧ Finishes f (.hear (.queried answer) :: rest) g es a ∧
      ∀ payload, answer = .ok payload → rest.head? = some (.advance (.decoded outcome)) := by
  cases answer with
  | error failure =>
    exact ⟨[], _, _, _, nofun, .last (by simp only [Feed.step, hear, held]; rfl) rfl rfl, nofun⟩
  | ok payload =>
    obtain ⟨r, made, held'⟩ : ∃ r, f.step (.hear (.queried (.ok payload))) = some r ∧
        r.state.holder = some (.decoding purpose payload) :=
      ⟨_, by simp only [Feed.step, hear, held]; rfl, rfl⟩
    obtain ⟨rest, g, es, a, inner, fin⟩ :=
      canFinish_of_decoding (o.step (transition_of_step made)) held' registered outcome
    exact ⟨.advance (.decoded outcome) :: rest, g, _, a, inner_cons trivial inner, .more made (by simp [held']) fin,
      fun _ _ => rfl⟩

/-- **A pull can always be finished**, however far it has come. -/
theorem canFinish_of_pull (o : f.Orderly) (tidy : f.Tidy) (pulls : f.pull? = some purpose)
    (queried : f.stage = .querying → ∃ answer, p (.queried answer))
    (registered : ∃ answer, p (.registered answer)) : f.CanFinish p := by
  obtain ⟨s, held, wants⟩ := Option.bind_eq_some_iff.1 pulls
  cases s with
  | querying =>
    obtain ⟨answer, given⟩ := queried (by rw [stage, held])
    obtain ⟨rest, g, es, a, inner, fin, -⟩ := canFinish_of_querying o held registered answer (.ok ⟨[]⟩)
    exact ⟨.hear _ :: rest, g, es, a, inner_cons given inner, fin⟩
  | decoding =>
    obtain ⟨rest, g, es, a, inner, fin⟩ := canFinish_of_decoding o held registered (.ok ⟨[]⟩)
    exact ⟨.advance _ :: rest, g, es, a, inner_cons trivial inner, fin⟩
  | seeding => exact canFinish_of_seeding o held registered
  | writing =>
    obtain ⟨rest, writing⟩ := tidy.locks _ held
    exact canFinish_of_writing held writing registered
  | registering => exact canFinish_of_registering held registered
  | _ => cases wants

end Feed

end LazyHub
