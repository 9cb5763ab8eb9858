import LazyHub.Lending
import LazyHub.Scenario.Memory

/-!
# Scenarios with an in-process provider

A provider is called directly, and the leases of its payloads are kept or given back at once.
Callbacks log the payloads they are invoked with.
-/

namespace LazyHub.Scenario

/-- A callback that logs its payloads. -/
structure Logger where
  /-- Its label. -/
  label : String
  /-- The label under which it keeps the leases of its payloads, unless it gives them back. -/
  keep : Option String

/-- An operation on a provider. -/
inductive ProviderOp where
  /-- Query the payload, and keep its lease under a label or give it back. -/
  | query (keep : Option String)
  /-- Register a callback. -/
  | register (logger : Logger)
  /-- End a registration. -/
  | unregister (registration : Registration)
  /-- Give back the leases kept under a label. -/
  | release (label : String)
  /-- Change the payload without telling anyone. -/
  | set (payload : Value)
  /-- Change the payload and tell the callback. -/
  | push (payload : Value)
  /-- Tell the callback a payload that queries do not show. -/
  | announce (payload : Value)
  /-- Arm the provider to refuse its next call of one sort. -/
  | refuse (call : ProviderCall) (message : String)
  /-- Look at a lease of one's own, and give it back. -/
  | lease (payload : Value) (returnable : Bool)

namespace ProviderOp

/-- A provider in the course of a scenario. -/
structure State where
  /-- The provider and what it has lent. -/
  lending : Lending Value Logger
  /-- The leases kept, by number, each under a label. -/
  kept : List (String × Nat) := []

/-- Do something to the provider. -/
def act (use : ProviderUse Value Logger) : StateM State (List (ProviderDeed Value Logger)) := do
  let s ← get
  match s.lending.step use with
  | some r =>
    modify fun s => { s with lending := r.state }
    pure r.effects
  | none => pure []

/-- Keep a lease under a label, or give it back. -/
def keepOrRelease (keep : Option String) (lent : NumberedLease Value) : StateM State Unit :=
  match keep with
  | some label => modify fun s => { s with kept := (label, lent.number) :: s.kept }
  | none => discard (act (.giveBack lent.number))

/-- The report on an answer. -/
def answered (s : State) : ProviderReply (NumberedLease Value) → Reply
  | .queried (.ok lent) => .list [.value lent.payload, .text (lent.inspect Value.inspect)]
  | .registered (.ok registration) => .list [.number registration.number, .text registration.inspect, .truth true]
  | .unregistered (.ok ()) => .truth (s.lending.provider.unregisteredOn = some (.client 0))
  | .queried (.error failure) | .registered (.error failure) | .unregistered (.error failure) => .providerFailure failure

/-- See to the lease of a payload, and report. A callback logs that it was invoked. -/
def receive (keep : Option String) : ProviderDeed Value Logger → StateM State Reply
  | .replied reply => do
    if let .queried (.ok lent) := reply then keepOrRelease keep lent
    pure (answered (← get) reply)
  | .invoked logger lent => do
    keepOrRelease logger.keep lent
    pure (.list [.text logger.label, .value lent.payload])

/-- Make a call and report on the answer. -/
def call (use : ProviderUse Value Logger) (keep : Option String := none) : StateM State Reply := do
  pure ((← (← act use).mapM (receive keep)).headD .nothing)

/-- Have the callback invoked, if there is one, and report on it. -/
def invoke (use : ProviderUse Value Logger) : StateM State Reply := do
  pure (.list (← (← act use).mapM (receive none)))

/-- Carry out one operation. -/
def perform : ProviderOp → StateM State Reply
  | query keep => call .query keep
  | register logger => call (.register logger)
  | unregister registration => call (.unregister registration (.client 0))
  | release label => do
    let (ended, kept) := (← get).kept.partition (·.1 = label)
    modify fun s => { s with kept }
    for (_, number) in ended do
      discard (act (.giveBack number))
    pure (.number ended.length)
  | set payload => call (.set payload)
  | push payload => invoke (.push payload)
  | announce payload => invoke (.announce payload)
  | refuse kind message => call (.refuse kind message)
  | lease payload returnable =>
    let l : Lease Value := ⟨payload, returnable⟩
    pure (.list [.text (l.inspect Value.inspect), .number 0, .list (l.release.map .value)])

/-- The provider's counters, under its name. -/
def counters (s : State) : List (String × LocalProvider.Counters) := [("p", s.lending.provider.counters)]

/-- Carry out one operation and report on it. -/
def report (op : ProviderOp) : StateM State Line := do
  let before := counters (← get)
  let reply ← perform op
  pure { reply, moved := movedCounters before (counters (← get)) }

/-- Carry out a scenario. -/
def play (initial : Value) (ops : List ProviderOp) : Transcript :=
  { outcome := .ok ((ops.mapM report).run { lending := .ofInitial initial }).run.1 }

end ProviderOp

end LazyHub.Scenario
