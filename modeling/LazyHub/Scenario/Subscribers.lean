import LazyHub.Scenario.Reaction
import LazyHub.Subscribers

/-!
# Scenarios with one collection of subscribers

Subscribers are added and removed, and values are delivered to those there are. Subscribers may
do all of this themselves while they are called.
-/

namespace LazyHub.Scenario

/-- An operation on one collection of subscribers. -/
inductive SubscribersOp where
  /-- Subscribe under a token. -/
  | insert (token : Token) (reaction : Reaction SubscribersOp)
  /-- End the subscription under a token. -/
  | erase (token : Token)
  /-- End all subscriptions. -/
  | clear
  /-- How many there are, and whether there are none. -/
  | size
  /-- The form used in diagnostics. -/
  | inspect
  /-- Deliver a value up to the first panic. -/
  | deliver (value : Value)
  /-- Deliver a value to everyone, for a signal. -/
  | deliverIsolated (signal : SignalId) (value : Value)
  /-- The log of calls since it was last taken. -/
  | calls
  /-- What a channel has collected since it was last drained. -/
  | drain (label : String)

mutual

/-- How many operations an operation can lead to. -/
def SubscribersOp.weight : SubscribersOp → Nat
  | .insert _ ⟨_, _, actions, times, _⟩ => 1 + times * SubscribersOp.weightOfActions actions
  | _ => 1

/-- How many operations a subscriber's operations can lead to. -/
def SubscribersOp.weightOfActions : Option (List SubscribersOp) → Nat
  | none => 0
  | some ops => SubscribersOp.weightOfList ops

/-- How many operations a list of operations can lead to. -/
def SubscribersOp.weightOfList : List SubscribersOp → Nat
  | [] => 0
  | op :: rest => op.weight + SubscribersOp.weightOfList rest

end

namespace SubscribersOp

/-- A collection of subscribers in the course of a scenario. -/
structure State where
  /-- The subscribers. -/
  subscribers : Subscribers (Handler SubscribersOp) := .empty
  /-- The journal, latest entry first. -/
  journal : List Entry := []
  /-- What labels stand for. -/
  memory : Memory := {}

instance : HasMemory State where
  memory := State.memory
  modifyMemory f s := { s with memory := f s.memory }

/-- Change the subscribers. -/
def change (f : Subscribers (Handler SubscribersOp) → Subscribers (Handler SubscribersOp)) : Play State Unit :=
  modify fun s => { s with subscribers := f s.subscribers }

/-- Those who are subscribed now. -/
def subscribers : Play State (Subscribers (Handler SubscribersOp)) := do pure (← get).subscribers

/-- Carry out one operation, given how subscribers carry out theirs. -/
def perform (nested : SubscribersOp → Play State Reply) : SubscribersOp → Play State Reply
  | insert token reaction => do
    let handler ← Play.make reaction
    change (·.insert token handler)
    pure (.number (← get).subscribers.size)
  | erase token => do
    let there := (← get).subscribers.contains token
    change (·.erase token)
    pure (.truth there)
  | clear => do
    let count := (← get).subscribers.size
    change fun _ => .empty
    pure (.number count)
  | size => do
    let s := (← get).subscribers
    pure (.list [.number s.size, .truth s.isEmpty])
  | inspect => do pure (.text (← get).subscribers.inspect)
  | deliver value => do
    let call := fun _ handler value => Play.react nested handler ⟨0⟩ (some value)
    let panicked ← Subscribers.send subscribers id call value
    pure (if panicked then .refused .panicked else .nothing)
  | deliverIsolated signal value => do
    let call := fun _ handler value => Play.react nested handler ⟨0⟩ (some value)
    let note := fun token =>
      modify fun s => { s with journal := .subscriberPanicked token signal :: s.journal }
    pure (.number (← Subscribers.sendIsolated subscribers id call note value))
  | calls => do pure (.list ((← Play.takeCalls).map (·.line)))
  | drain label => Play.drainChannel label

/-- Carry out one operation, with calls nested at most so deep. -/
def performAt : Nat → SubscribersOp → Play State Reply
  | 0 => fun _ => Play.stuck
  | n + 1 => perform fun op => performAt n op

/-- Carry out one operation and report on it. -/
def report (depth : Nat) (op : SubscribersOp) : Play State Line := do
  let earlier := (← get).journal.length
  let reply ← performAt depth op
  let journal := (← get).journal
  pure { reply, journal := (journal.take (journal.length - earlier)).reverse }

/-- Carry out a scenario. Calls cannot nest deeper than there are operations to lead to them. -/
def play (ops : List SubscribersOp) : Option Transcript :=
  ((ops.mapM (report (weightOfList ops + 1))).run {}).map fun r => { outcome := .ok r.1 }

end SubscribersOp

end LazyHub.Scenario
