import LazyHub.Scenario.Memory

/-!
# Reactions

What a subscriber of a scenario does when it is called is a `Reaction`: it logs the call, carries
out operations of the scenario for the first few calls, and may then panic. A subscriber that is
a channel only collects the value. A `Handler` is a reaction put to use, with a number of its own.
-/

namespace LazyHub.Scenario

/-- How a subscriber takes a call. -/
inductive Style where
  /-- It is told the value. -/
  | payload
  /-- It is told only that the value changed. -/
  | notify
  /-- It collects the value in a channel. -/
  | channel
  /-- It writes to a channel that nobody reads. -/
  | closed
deriving DecidableEq

/-- When a subscriber panics. -/
inductive Panics where
  /-- It does not. -/
  | never
  /-- At every call. -/
  | always
  /-- When it is told a value that reads exactly so. -/
  | on (value : Value)

/-- What a subscriber does when it is called. `Op` are the operations of the scenario. -/
structure Reaction (Op : Type) where
  /-- The subscriber's label. -/
  label : String
  /-- How it takes a call. -/
  style : Style := .payload
  /-- The operations it carries out. -/
  actions : Option (List Op) := none
  /-- At how many calls it carries them out. -/
  times : Nat := 1
  /-- When it panics. -/
  panics : Panics := .never

/-- A reaction put to use. -/
structure Handler (Op : Type) where
  /-- The subscriber's number. -/
  number : Nat
  /-- What it does. -/
  reaction : Reaction Op

/-- Whether a subscriber panics at a call. -/
def Reaction.panicsOn {Op : Type} (r : Reaction Op) (value : Option Value) : Bool :=
  match r.panics, r.style, value with
  | .always, _, _ => true
  | .on v, .payload, some told => v = told
  | _, _, _ => false

namespace Play

variable {S Op : Type} [HasMemory S]

/-- Put a reaction to use. A channel is kept under the label, in place of one kept there before. -/
def make (r : Reaction Op) : Play S (Handler Op) := do
  let number := (← memory).made
  remember fun m => { m with made := number + 1 }
  if r.style = .channel then
    remember fun m => { m with channels := m.channels.put r.label ⟨number, []⟩ }
  pure ⟨number, r⟩

/-- Add a value to the channel of a subscriber, if the channel is still kept. -/
def collect (number : Nat) (value : Value) : Play S Unit :=
  remember fun m =>
    { m with
      channels := m.channels.map fun (label, c) =>
        if c.writer = number then (label, { c with collected := value :: c.collected }) else (label, c) }

/-- Carry out operations and log their replies. -/
def actOut (perform : Op → Play S Reply) (label : String) (signal : SignalId) (actions : List Op) :
    Play S Unit := do
  let replies ← actions.mapM perform
  log signal (.list [.text label, .text "did", .list replies])

/-- Call a subscriber, with a value unless it is called for a job, and tell whether it panics. -/
def react (perform : Op → Play S Reply) (h : Handler Op) (signal : SignalId) (value : Option Value) :
    Play S Bool := do
  let r := h.reaction
  match r.style, value with
  | .closed, _ => pure false
  | .channel, some v =>
    collect h.number v
    pure false
  | .channel, none => pure false
  | style, _ =>
    match style, value with
    | .payload, some v => log signal (.list [.text r.label, .text "value", .value v])
    | _, _ => log signal (.list [.text r.label, .text "notify"])
    match r.actions with
    | some actions =>
      if (← memory).acted.count h.number < r.times then
        remember fun m => { m with acted := h.number :: m.acted }
        actOut perform r.label signal actions
    | none => pure ()
    pure (r.panicsOn value)

end Play

end LazyHub.Scenario
