import LazyHub.Scenario.Holding

/-!
# Scenarios with a hub

Clients read and subscribe, subscribers and decoders carry out operations of their own, and
providers push. The workers deliver only during a flush, or when they are left to idle.
-/

namespace LazyHub.Scenario

/-- An operation on a hub. -/
inductive HubOp where
  /-- The current value of a signal. -/
  | read (key : Key)
  /-- Subscribe, and keep the token under the subscriber's label. -/
  | subscribe (key : Key) (reaction : Reaction HubOp)
  /-- End a subscription. -/
  | unsubscribe (signal : SignalId) (subscription : TokenRef)
  /-- Subscribe, and keep a guard under the subscriber's label. -/
  | guard (key : Key) (reaction : Reaction HubOp)
  /-- Drop a guard. -/
  | dropGuard (label : String)
  /-- Turn a guard into its token. -/
  | disarmGuard (label : String)
  /-- How many are subscribed to a signal. -/
  | count (signal : SignalId)
  /-- Whether a signal's feed is active. -/
  | active (signal : SignalId)
  /-- All signals with their names and kinds. -/
  | signals
  /-- Have everything delivered, and report the log by worker. -/
  | flush
  /-- Let the workers work although nobody waits. -/
  | idle
  /-- Drop every subscription. -/
  | shutdown
  /-- The form used in diagnostics. -/
  | inspect
  /-- What a channel has collected since it was last drained. -/
  | drain (label : String)
  /-- Take one more handle. -/
  | clone
  /-- Drop a handle. -/
  | drop
  /-- Act on a provider. -/
  | source (op : SourceOp (Payload HubOp))

mutual

/-- How many operations an operation can lead to, and how many values they can emit. -/
def HubOp.weight : HubOp → Nat
  | .subscribe _ ⟨_, _, actions, times, _⟩ => 1 + times * HubOp.weightOfActions actions
  | .guard _ ⟨_, _, actions, times, _⟩ => 1 + times * HubOp.weightOfActions actions
  | .source ⟨_, _, act⟩ => 1 + HubOp.weightOfAct act
  | _ => 1

/-- The weight of an act on a provider. -/
def HubOp.weightOfAct : SourceAct (Payload HubOp) → Nat
  | .set payload => HubOp.weightOfPayload payload
  | .push payload => HubOp.weightOfPayload payload
  | .announce payload => HubOp.weightOfPayload payload
  | .announceAndSettle payload => HubOp.weightOfPayload payload
  | .refuse .. => 0

/-- The weight of a payload. -/
def HubOp.weightOfPayload : Payload HubOp → Nat
  | ⟨emissions, _, during⟩ => emissions.length + HubOp.weightOfActions during

/-- The weight of operations that may be missing. -/
def HubOp.weightOfActions : Option (List HubOp) → Nat
  | none => 0
  | some ops => HubOp.weightOfList ops

/-- The weight of operations in order. -/
def HubOp.weightOfList : List HubOp → Nat
  | [] => 0
  | op :: rest => op.weight + HubOp.weightOfList rest

end

namespace HubOp

/-- The clients of a scenario's feeds. -/
abbrev Actors := Holding.Actors (Payload HubOp) HubOp

/-- An act of a scenario with a hub. -/
abbrev Scene := Holding.Scene (Payload HubOp) HubOp

/-- Carry out one operation of a scenario, with the clients that belong to it. -/
def perform (turns : Nat) (c : Actors) : HubOp → Scene Reply
  | read key => Holding.read c key
  | subscribe key reaction => Holding.subscribe c key reaction
  | unsubscribe signal subscription => Holding.unsubscribe c signal subscription
  | guard key reaction => Holding.guarded c key reaction
  | dropGuard label => Holding.dropGuard c label
  | disarmGuard label => Holding.disarmGuard label
  | count signal => Holding.looking c fun h => .number (h.subscriberCount signal)
  | active signal => Holding.looking c fun h => .truth (h.isActive signal)
  | signals => Holding.signals c
  | flush => Holding.flush c turns
  | idle => do
    Act.idle c turns
    pure .nothing
  | shutdown => Holding.shutdown c
  | inspect => Holding.looking c fun h => .text h.inspect
  | drain label => Play.drainChannel label
  | clone => Holding.clone
  | drop => Holding.drop c
  | source op => op.perform c

/-- The clients of a scenario's feeds, with operations nested at most so deep. -/
def actors (feeds : List (ScriptedFeed HubOp)) (turns : Nat) : Nat → Actors
  | 0 => ScriptedFeed.client feeds (fun _ => Play.stuck) fun _ => .stuck
  | n + 1 =>
    ScriptedFeed.client feeds (fun op => perform turns (actors feeds turns n) op) fun _ => actors feeds turns n

/-- A bound on what a scenario can lead to: each of its operations and payloads may come up once
more for every feed whose lock is held. -/
def limit (settings : Settings) (feeds : List (ScriptedFeed HubOp)) (ops : List HubOp) : Nat :=
  let payloads := feeds.flatMap fun f => [some f.payload, f.onRegister, f.onUnregister].filterMap id
  let weight := (payloads.map weightOfPayload).foldr (· + ·) 0 + weightOfList ops + settings.workerCount
  Nat.pow (weight + 2) (feeds.length + 2)

/-- Carry out a scenario. -/
def play (settings : Settings) (feeds : List (ScriptedFeed HubOp)) (ops : List HubOp) : Option Transcript :=
  let bound := limit settings feeds ops
  playOn (ScriptedFeed.names feeds) (fun op => perform bound (actors feeds bound bound) op) []
    (World.assemble settings (feeds.map fun f => (f.plan, f.payload)))
    (fun world => [world.hub.assembledEntry]) [] ops

end HubOp

end LazyHub.Scenario
