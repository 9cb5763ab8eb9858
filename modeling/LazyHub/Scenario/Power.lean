import LazyHub.Power.Monitor
import LazyHub.Scenario.Holding

/-!
# Scenarios with the power monitor

Clients get power signals and subscribe to their changes, and providers report. Subscribers may
carry out operations of their own.
-/

namespace LazyHub.Scenario

open Power

/-- An operation on a power monitor. -/
inductive PowerOp where
  /-- The current value of a signal. -/
  | get (signal : PowerSignal)
  /-- Subscribe, and keep the token under the subscriber's label. -/
  | subscribe (signal : PowerSignal) (reaction : Reaction PowerOp)
  /-- End a subscription. -/
  | unsubscribe (signal : PowerSignal) (subscription : TokenRef)
  /-- Subscribe, and keep a guard under the subscriber's label. -/
  | guard (signal : PowerSignal) (reaction : Reaction PowerOp)
  /-- Drop a guard. -/
  | dropGuard (label : String)
  /-- How many are subscribed to a signal, and whether its feed is active. -/
  | count (signal : PowerSignal)
  /-- What a channel has collected since it was last drained. -/
  | drain (label : String)
  /-- Take one more handle. -/
  | clone
  /-- Drop a handle. -/
  | drop
  /-- Have everything delivered, and report the log by worker. -/
  | flush
  /-- Drop every subscription. -/
  | shutdown
  /-- All signals with their names and kinds. -/
  | signals
  /-- The form used in diagnostics. -/
  | inspect
  /-- The current value of any signal, by key. -/
  | read (key : Key)
  /-- The charge, for those who cannot represent an unknown one. -/
  | legacyCharge
  /-- Act on the provider of a kind. -/
  | source (kind : SourceKind) (act : SourceAct Report)

mutual

/-- How many operations an operation can lead to. -/
def PowerOp.weight : PowerOp → Nat
  | .subscribe _ ⟨_, _, actions, times, _⟩ => 1 + times * PowerOp.weightOfActions actions
  | .guard _ ⟨_, _, actions, times, _⟩ => 1 + times * PowerOp.weightOfActions actions
  | _ => 1

/-- The weight of operations that may be missing. -/
def PowerOp.weightOfActions : Option (List PowerOp) → Nat
  | none => 0
  | some ops => PowerOp.weightOfList ops

/-- The weight of operations in order. -/
def PowerOp.weightOfList : List PowerOp → Nat
  | [] => 0
  | op :: rest => op.weight + PowerOp.weightOfList rest

end

namespace PowerOp

/-- The clients of a scenario's monitor. -/
abbrev Actors := Holding.Actors Report PowerOp

/-- An act of a scenario with a monitor. -/
abbrev Scene := Holding.Scene Report PowerOp

/-- The charge, for those who cannot represent an unknown one. -/
def readLegacyCharge (c : Actors) : Scene Reply :=
  Holding.withHub c do
    match ← Monitor.get c .remainingChargePercent with
    | .ok (.percent p) => pure (.number (Power.legacyCharge p))
    | answer => pure (.ofValue answer)

/-- Carry out one operation of a scenario, with the clients that belong to it. -/
def perform (sources : Sources) (turns : Nat) (c : Actors) : PowerOp → Scene Reply
  | get s => Holding.read c s.key
  | subscribe s reaction => Holding.subscribe c s.key reaction
  | unsubscribe s subscription => Holding.unsubscribe c s.key.id subscription
  | guard s reaction => Holding.guarded c s.key reaction
  | dropGuard label => Holding.dropGuard c label
  | count s =>
    Holding.looking c fun h => .list [.number (h.subscriberCount s.key.id), .truth (h.isActive s.key.id)]
  | drain label => Play.drainChannel label
  | clone => Holding.clone
  | drop => Holding.drop c
  | flush => Holding.flush c turns
  | shutdown => Holding.shutdown c
  | signals => Holding.signals c
  | inspect => Holding.looking c fun h => .text (Monitor.inspect h)
  | read key => Holding.read c key
  | legacyCharge => readLegacyCharge c
  | source kind act =>
    match sources.feedOf? kind with
    | some i => act.perform c i
    | none => pure .nothing

/-- The clients of a scenario's monitor, with operations nested at most so deep. -/
def actors (sources : Sources) (turns : Nat) : Nat → Actors
  | 0 => .stuck
  | n + 1 =>
    Monitor.client fun signal _ handler value =>
      Play.react (fun op => perform sources turns (actors sources turns n) op) handler signal (some value)

/-- A bound on what a scenario can lead to: an operation emits three values at most. -/
def limit (settings : Settings) (ops : List PowerOp) : Nat :=
  3 * weightOfList ops + settings.workerCount + 2

/-- Carry out a scenario. -/
def play (settings : Settings) (sources : Sources) (ops : List PowerOp) : Option Transcript :=
  let bound := limit settings ops
  playOn (sources.present.map (·.kind.name)) (fun op => perform sources bound (actors sources bound bound) op)
    sources.absences (Monitor.assemble settings sources)
    (fun world => [world.hub.assembledEntry, sources.startedEntry])
    [("providers", .text sources.inspect)] ops

end PowerOp

end LazyHub.Scenario
