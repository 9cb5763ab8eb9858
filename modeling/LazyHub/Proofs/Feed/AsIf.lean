import LazyHub.Proofs.Feed.Balance

/-!
# A feed as if its state lock were in other hands

Those who have nothing to do with a feed's state lock do not see what its holder is up to. `Feed.asIf` is a
feed as if its holder were doing something else, or nothing, and as if other callbacks could be invoked. A step
that is made aside of the state lock (`Feed.IsAside`) can be made all the same, and has the same effects
(`Transition.asIf`).

Nor does a pull depend on what it is made for until its values are written (`Transition.asIf_pull`).
-/

namespace LazyHub

variable {V H R : Type}

/-- The holder of the state lock pulls for something else. -/
def Section.for (purpose : Purpose H) : Section V H R → Section V H R
  | .querying _ => .querying purpose
  | .decoding _ payload => .decoding purpose payload
  | .seeding _ values => .seeding purpose values
  | .writing _ => .writing purpose
  | .registering _ => .registering purpose
  | s => s

namespace Feed

/-- The feed as if the holder of the state lock were doing something else, and other callbacks could be
invoked. -/
def asIf (φ : Option (Section V H R) → Option (Section V H R)) (χ : List Nat → List Nat) (f : Feed V H R) :
    Feed V H R :=
  { f with holder := φ f.holder, callbacks := χ f.callbacks }

/-- What a step leaves behind, as if the holder of the state lock were doing something else. -/
def Result.asIf (φ : Option (Section V H R) → Option (Section V H R)) (χ : List Nat → List Nat) (r : Result V H R) :
    Result V H R :=
  { r with state := r.state.asIf φ χ }

/-- A step that is made aside of the state lock: by a push, or by the provider that invokes a callback. A value
is written by whoever holds the update lock. -/
def IsAside (f : Feed V H R) : FeedLabel V H R → Prop
  | .invoke .. | .advance (.pushDecoded ..) | .advance (.enter _) | .advance (.leave _) => True
  | .advance .write | .advance .look | .advance .post => True
  | .advance .settle => ∃ w number, f.writer = some w ∧ w.push = some number
  | _ => False

variable [SignalValue V] {φ : Option (Section V H R) → Option (Section V H R)} {χ : List Nat → List Nat}
  {f : Feed V H R} {l : FeedLabel V H R} {r : Result V H R}

theorem check_asIf (f : Feed V H R) (values : List (Emission V)) : (f.asIf φ χ).check values = f.check values := by
  induction values with
  | nil => rfl
  | cons e rest ih =>
    simp only [check, ih]
    rfl

@[simp] theorem admissible_asIf (f : Feed V H R) (outcome : Except DecodeFailure (Emissions V)) :
    (f.asIf φ χ).admissible outcome = f.admissible outcome := by
  cases outcome with
  | error failure => rfl
  | ok out => simp only [admissible, check_asIf]

/-- **A step aside of the state lock** does not depend on what the holder of the state lock is doing. -/
theorem Transition.asIf (t : f.Transition l r) (aside : f.IsAside l)
    (given : ∀ epoch payload, l = .invoke epoch payload → epoch ∈ f.callbacks → epoch ∈ χ f.callbacks) :
    (f.asIf φ χ).step l = some (r.asIf φ χ) := by
  cases t with
  | invokeUnowned there unowned =>
    have given' := given _ _ rfl there
    simp only [Feed.step, Feed.invoke, Feed.asIf, given', not_true_eq_false, if_false]
    exact if_pos unowned
  | invoke there owned =>
    have given' := given _ _ rfl there
    simp only [Feed.step, Feed.invoke, Feed.asIf, given', not_true_eq_false, if_false]
    exact if_neg owned
  | write writing | look writing | post writing =>
    simp only [Feed.step, advance, Feed.asIf, writing]
    rfl
  | settlePush writing =>
    simp only [Feed.step, advance, Feed.asIf, writing]
    rfl
  | settleRefresh _ writing | settle _ _ writing =>
    obtain ⟨w, number, other, pushes⟩ := aside
    cases writing.symm.trans other
    cases pushes
  | pushRefused known refused =>
    have known' : (f.asIf φ χ).push? _ = _ := known
    simp only [Feed.step, advance, known', admissible_asIf, refused]
    rfl
  | pushDecoded known admitted =>
    have known' : (f.asIf φ χ).push? _ = _ := known
    simp only [Feed.step, advance, known', admissible_asIf, admitted]
    rfl
  | pushAccepted known free =>
    have known' : (f.asIf φ χ).push? _ = _ := known
    have free' : (f.asIf φ χ).writer = none := free
    simp only [Feed.step, advance, known', free']
    exact if_pos rfl
  | pushStale known free stale =>
    have known' : (f.asIf φ χ).push? _ = _ := known
    have free' : (f.asIf φ χ).writer = none := free
    simp only [Feed.step, advance, known', free']
    exact if_neg stale
  | leave known =>
    have known' : (f.asIf φ χ).push? _ = _ := known
    simp only [Feed.step, advance, known']
    rfl
  | content | activate | deactivate | refresh | attach | subscribe | unknown | detach | detachLast | shutdown
  | queryFailed | queried | registerFailed | subscribed | activated | unregistered | decodeFailed | decoded | seed
  | clear | cleared | clearedInactive | withdraw | retire | clone | drop | dropLast => exact aside.elim

/-- A step of a pull that has yet to write its values and let go of the update lock. -/
def IsPullStep : FeedLabel V H R → Prop
  | .hear (.queried _) | .advance (.decoded _) | .advance .seed => True
  | _ => False

/-- **A step of a pull** does not depend on what the pull is made for. -/
theorem Transition.asIf_pull (t : f.Transition l r) (pulls : IsPullStep l) (purpose : Purpose H) :
    (f.asIf (Option.map (Section.for purpose)) id).step l = some (r.asIf (Option.map (Section.for purpose)) id) := by
  cases t with
  | queryFailed held | queried held =>
    simp only [Feed.step, hear, Feed.asIf, held, Option.map_some, Section.for]
    rfl
  | decodeFailed held refused =>
    have held' : (f.asIf (Option.map (Section.for purpose)) id).holder = some (.decoding purpose _) :=
      congrArg (Option.map (Section.for purpose)) held
    simp only [Feed.step, advance, held', admissible_asIf, refused]
    rfl
  | decoded held admitted =>
    have held' : (f.asIf (Option.map (Section.for purpose)) id).holder = some (.decoding purpose _) :=
      congrArg (Option.map (Section.for purpose)) held
    simp only [Feed.step, advance, held', admissible_asIf, admitted]
    rfl
  | seed held free =>
    simp only [Feed.step, advance, Feed.asIf, held, free, Option.map_some, Section.for]
    rfl
  | _ => exact pulls.elim

/-- **Where a pull made for an activation goes on to register a callback, a pull made for the values alone is
done.** -/
theorem asIf_settle {purpose : Purpose H} (held : f.holder = some (.writing purpose))
    (writing : f.writer = some ⟨none, [], .none⟩) :
    (f.asIf (Option.map (Section.for .refresh)) id).step (.advance .settle) =
      some { state := { f with writer := none, holder := none }, answer := some .done } := by
  simp only [Feed.step, advance, Feed.asIf, held, writing, Option.map_some, Section.for, settleWriter]
  rfl

end Feed

end LazyHub
