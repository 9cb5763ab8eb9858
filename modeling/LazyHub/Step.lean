import LazyHub.Failure

/-!
# Atomic steps

The parts of a hub are machines that many clients drive at once. Each machine is a function from
a state and a label to what the step leaves behind, or to nothing where the label is not enabled
in the state; concurrency is the interleaving of labels. `Stepped` is what a step leaves behind,
and `run` follows a word of labels.
-/

namespace LazyHub

/-- What the operation that a step completes answers to its caller. -/
inductive Answer where
  /-- It was carried out. -/
  | done
  /-- It was carried out in vain: the token named no subscription. -/
  | unknownToken
  /-- It failed. -/
  | failed (failure : HubFailure)
deriving DecidableEq

/-- The result that an answer stands for. -/
def Answer.toExcept : Answer → Except HubFailure Unit
  | .failed failure => .error failure
  | _ => .ok ()

/-- What an atomic step leaves behind. -/
structure Stepped (S E : Type) where
  /-- The state after the step. -/
  state : S
  /-- What the step did outside the state, in order. -/
  effects : List E := []
  /-- The answer of the operation that the step completes, if it completes one. -/
  answer : Option Answer := none

namespace Stepped

variable {S T E F : Type}

/-- Look at the state and the effects of a step as part of a larger machine. -/
def map (f : S → T) (g : E → F) (r : Stepped S E) : Stepped T F :=
  ⟨f r.state, r.effects.map g, r.answer⟩

end Stepped

/-- Follow a word of labels, collecting effects; a label that is not enabled ends the attempt. -/
def run {S L E : Type} (step : S → L → Option (Stepped S E)) : List L → S → Option (S × List E)
  | [], s => some (s, [])
  | l :: rest, s =>
    match step s l with
    | none => none
    | some r => (run step rest r.state).map fun (t, effects) => (t, r.effects ++ effects)

end LazyHub
