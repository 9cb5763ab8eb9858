import LazyHub.Scenario.Reply

/-!
# What the actors of a scenario remember

Subscriptions, guards and channels are known to a scenario by labels. `Memory` holds what the
labels stand for, how often each subscriber has acted, and the log of calls. A `Play` is an act
of a scenario: a state in which the memory is kept, and an answer unless it never ends.
-/

namespace LazyHub.Scenario

/-- Something known by a label, for each of several labels. -/
abbrev Labelled (α : Type) := List (String × α)

namespace Labelled

variable {α : Type}

/-- What a label stands for. -/
def get? (m : Labelled α) (label : String) : Option α := List.lookup label m

/-- Forget a label. -/
def erase (m : Labelled α) (label : String) : Labelled α := m.filter (·.1 ≠ label)

/-- Let a label stand for something. -/
def put (m : Labelled α) (label : String) (a : α) : Labelled α := (label, a) :: erase m label

end Labelled

/-- A subscription that ends when its guard is dropped. -/
structure Guard where
  /-- The signal subscribed to. -/
  signal : SignalId
  /-- The subscription's token. -/
  token : Token
deriving DecidableEq

/-- The form used in diagnostics. -/
def Guard.inspect (g : Guard) : String :=
  Text.Diagnostic.tuple "SubscriptionGuard" [g.signal.display, g.token.display]

/-- A channel that collects the values its subscriber is called with. -/
structure Channel where
  /-- The subscriber that writes to it. -/
  writer : Nat
  /-- The values collected, latest first. -/
  collected : List Value

/-- A line in the log of calls. -/
structure Call where
  /-- The signal it is about. -/
  signal : SignalId
  /-- What is logged. -/
  line : Reply

/-- What the actors of a scenario remember. -/
structure Memory where
  /-- The tokens of subscriptions. -/
  tokens : Labelled Token := []
  /-- The guards kept. -/
  guards : Labelled Guard := []
  /-- The channels kept. -/
  channels : Labelled Channel := []
  /-- How many subscribers were made. -/
  made : Nat := 0
  /-- The subscribers that have acted, once for each time. -/
  acted : List Nat := []
  /-- The log of calls, latest first. -/
  calls : List Call := []
  /-- How many threads were started besides the first. -/
  threads : Nat := 0
  /-- How many handles the actors keep, besides those that operations hold while they run. -/
  handles : Nat := 1

/-- A state that keeps the memory of a scenario. -/
class HasMemory (S : Type) where
  /-- The memory kept. -/
  memory : S → Memory
  /-- Change the memory. -/
  modifyMemory : (Memory → Memory) → S → S

/-- An act of a scenario. -/
abbrev Play (S : Type) := StateT S Option

namespace Play

variable {S : Type}

/-- An act that never ends. -/
def stuck {α : Type} : Play S α := fun _ => none

variable [HasMemory S]

/-- Look at the memory. -/
def memory : Play S Memory := do pure (HasMemory.memory (← get))

/-- Change the memory. -/
def remember (f : Memory → Memory) : Play S Unit := modify (HasMemory.modifyMemory f)

/-- Add a line to the log of calls. -/
def log (signal : SignalId) (line : Reply) : Play S Unit :=
  remember fun m => { m with calls := ⟨signal, line⟩ :: m.calls }

/-- Take the log of calls, earliest line first, and begin a new one. -/
def takeCalls : Play S (List Call) := do
  let calls := (← memory).calls
  remember fun m => { m with calls := [] }
  pure calls.reverse

/-- How many handles the actors keep. -/
def countHandles : Play S Reply := do pure (.number (← memory).handles)

/-- Keep one more handle, and tell how many are kept then. -/
def keepHandle : Play S Reply := do
  remember fun m => { m with handles := m.handles + 1 }
  countHandles

/-- Keep one handle less. -/
def loseHandle : Play S Unit := remember fun m => { m with handles := m.handles - 1 }

/-- Take the values that a label's channel has collected, earliest first. -/
def drainChannel (label : String) : Play S Reply := do
  match (← memory).channels.get? label with
  | none => pure (.refused .noChannel)
  | some channel =>
    remember fun m => { m with channels := m.channels.put label { channel with collected := [] } }
    pure (.list (channel.collected.reverse.map .value))

end Play

/-- Lines grouped by the worker that serves their signal, in ascending order of worker; workers
without lines are left out. -/
def byWorker (workers : Nat) (calls : List Call) : Reply :=
  .list ((List.range workers).filterMap fun w =>
    match calls.filter fun c => c.signal.index % workers = w with
    | [] => none
    | own => some (.list [.number w, .list (own.map (·.line))]))

end LazyHub.Scenario
