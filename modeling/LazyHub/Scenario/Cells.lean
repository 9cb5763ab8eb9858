import LazyHub.Emissions
import LazyHub.Gate
import LazyHub.Scenario.Reply

/-!
# Scenarios with a cell, a gate, or a collection of emissions

The simplest scenarios: one value that operations look at and replace, and one list of emissions
that grows.
-/

namespace LazyHub.Scenario

open Text

/-- An operation on a cell. -/
inductive CellOp where
  /-- The value held. -/
  | get
  /-- Overwrite the value. -/
  | seed (value : Value)
  /-- Replace the value if it changed, and tell whether it did. -/
  | replace (value : Value)
  /-- The form used in diagnostics. -/
  | inspect

namespace CellOp

/-- Carry out one operation. -/
def perform : CellOp → StateM (Cell Value) Reply
  | get => do pure (.value (← MonadState.get).value)
  | seed value => do
    modify (·.seed value)
    pure .nothing
  | replace value => do
    let (changed, cell) := (← MonadState.get).replaceIfChanged value
    set cell
    pure (.truth changed)
  | inspect => do pure (.text (Diagnostic.tuple "SignalCache" [(← MonadState.get).value.inspect]))

/-- Carry out a scenario. -/
def play (initial : Value) (ops : List CellOp) : Transcript :=
  { outcome := .ok (((ops.mapM perform).run ⟨initial⟩).run.1.map fun reply => { reply }) }

end CellOp

/-- An operation on a gate. -/
inductive GateOp where
  /-- The value behind the gate. -/
  | get
  /-- Pass a value through the gate, and tell whether it was a change. -/
  | offer (value : Value)

namespace GateOp

/-- Carry out one operation. -/
def perform : GateOp → StateM (Gate Value) Reply
  | get => do pure (.value (← MonadState.get).value)
  | offer value => do
    let (changed, gate) := (← MonadState.get).offer value
    set gate
    pure (.truth changed)

/-- Carry out a scenario. -/
def play (initial : Value) (ops : List GateOp) : Transcript :=
  { outcome := .ok (((ops.mapM perform).run (.ofInitial initial)).run.1.map fun reply => { reply }) }

end GateOp

/-- An operation on a collection of emissions. -/
inductive EmissionsOp where
  /-- Emit a value, and tell how many there are. -/
  | emit (signal : SignalId) (value : Value)
  /-- The last value emitted for a key. -/
  | get (key : Key)
  /-- How many there are, and whether there are none. -/
  | size
  /-- The signals addressed. -/
  | signals
  /-- The form used in diagnostics. -/
  | inspect
  /-- Decode for a kind that feeds a single signal, and tell how many there are. -/
  | single (signal : SignalId) (converted : Except DecodeFailure Value)

namespace EmissionsOp

/-- Carry out one operation. -/
def perform : EmissionsOp → StateM (Emissions Value) Reply
  | emit signal value => do
    modify (·.emit signal value)
    pure (.number (← MonadState.get).size)
  | get key => do
    match (← MonadState.get).get? key with
    | some value => pure (.list [.value value])
    | none => pure .nothing
  | size => do
    let out ← MonadState.get
    pure (.list [.number out.size, .truth (out.size = 0)])
  | signals => do pure (.list ((← MonadState.get).signals.map fun s => .number s.index))
  | inspect => do pure (.text (← MonadState.get).inspect)
  | single signal converted => do
    match (Emissions.single signal converted (← MonadState.get)) with
    | .ok out =>
      set out
      pure (.number out.size)
    | .error failure => pure (.decodeFailure failure)

/-- Carry out a scenario. -/
def play (ops : List EmissionsOp) : Transcript :=
  { outcome := .ok (((ops.mapM perform).run .empty).run.1.map fun reply => { reply }) }

end EmissionsOp

end LazyHub.Scenario
