import LazyHub.Scenario.Source

/-!
# Scenarios with a single feed

A feed is held by its clients themselves. They make it active and inactive, pull, and look at
what it knows; its decoder may do all of this while a payload is under way. Handles on the feed
are copied and dropped, and an operation holds one of its own while it runs.
-/

namespace LazyHub.Scenario

/-- An operation on a feed that is held by its clients. -/
inductive FeedOp where
  /-- Make it active. -/
  | activate
  /-- Make it inactive. -/
  | deactivate
  /-- Pull the provider's payload, unless it is active. -/
  | refresh
  /-- The last known value of a signal. -/
  | cached (key : Key)
  /-- Whether it is active. -/
  | active
  /-- Its kind. -/
  | kind
  /-- Take one more handle. -/
  | clone
  /-- Drop a handle. -/
  | drop
  /-- The log since it was last taken. -/
  | calls
  /-- Act on its provider. -/
  | source (op : SourceOp (Payload FeedOp))

mutual

/-- How many operations an operation can lead to, and how many values they can emit. -/
def FeedOp.weight : FeedOp → Nat
  | .source ⟨_, _, act⟩ => 1 + FeedOp.weightOfAct act
  | _ => 1

/-- The weight of an act on the provider. -/
def FeedOp.weightOfAct : SourceAct (Payload FeedOp) → Nat
  | .set payload => FeedOp.weightOfPayload payload
  | .push payload => FeedOp.weightOfPayload payload
  | .announce payload => FeedOp.weightOfPayload payload
  | .announceAndSettle payload => FeedOp.weightOfPayload payload
  | .refuse .. => 0

/-- The weight of a payload. -/
def FeedOp.weightOfPayload : Payload FeedOp → Nat
  | ⟨emissions, _, during⟩ => emissions.length + FeedOp.weightOfActions during

/-- The weight of operations that may be missing. -/
def FeedOp.weightOfActions : Option (List FeedOp) → Nat
  | none => 0
  | some ops => FeedOp.weightOfList ops

/-- The weight of operations in order. -/
def FeedOp.weightOfList : List FeedOp → Nat
  | [] => 0
  | op :: rest => op.weight + FeedOp.weightOfList rest

end

namespace FeedOp

/-- The clients of a scenario's feed. -/
abbrev Actors := Client Value (Handler FeedOp) (Payload FeedOp) Memory

/-- An act of a scenario with a feed. -/
abbrev Scene := Play (Stage (Handler FeedOp) (Payload FeedOp))

/-- Act with a handle of one's own, if any handle is kept. -/
def withFeed (c : Actors) (act : Scene Reply) : Scene Reply := do
  if (← Play.memory).handles = 0 then pure (.refused .noFeed) else Act.withFeed c 0 act

/-- Drop the newest handle kept, if there is one, and tell how many are kept then. -/
def dropNewest (c : Actors) : Scene Reply := do
  if 0 < (← Play.memory).handles then
    Play.loseHandle
    Act.dropFeed c 0
  Play.countHandles

/-- Keep one more handle, if any is kept, and tell how many are kept then. -/
def cloneNewest : Scene Reply := do
  if (← Play.memory).handles = 0 then pure (.refused .noFeed)
  else
    Act.cloneFeed 0
    Play.keepHandle

/-- Carry out one operation of a scenario, with the clients that belong to it. -/
def perform (c : Actors) : FeedOp → Scene Reply
  | activate => withFeed c do pure (.ofUnit (← Act.activate c 0))
  | deactivate =>
    withFeed c do
      Act.deactivate c 0
      pure .nothing
  | refresh => withFeed c do pure (.ofUnit (← Act.refresh c 0))
  | cached key => withFeed c do pure (.ofValue ((← Act.feed 0).cached key))
  | active => withFeed c do pure (.truth (← Act.feed 0).isActive)
  | kind => withFeed c do pure (.text (← Act.feed 0).kind.name)
  | clone => cloneNewest
  | drop => dropNewest c
  | calls => do pure (.list ((← Play.takeCalls).map (·.line)))
  | source op => op.perform c

/-- The clients of a scenario's feed, with operations nested at most so deep. -/
def actors (feed : ScriptedFeed FeedOp) : Nat → Actors
  | 0 => ScriptedFeed.client [feed] (fun _ => Play.stuck) fun _ => .stuck
  | n + 1 => ScriptedFeed.client [feed] (fun op => perform (actors feed n) op) fun _ => actors feed n

/-- A bound on what a scenario can lead to: each of its operations and payloads may come up once
more while the feed's lock is held. -/
def limit (feed : ScriptedFeed FeedOp) (ops : List FeedOp) : Nat :=
  let payloads := [some feed.payload, feed.onRegister, feed.onUnregister].filterMap id
  Nat.pow ((payloads.map weightOfPayload).foldr (· + ·) 0 + weightOfList ops + 2) 3

/-- Carry out a scenario. -/
def play (settings : Settings) (feed : ScriptedFeed FeedOp) (ops : List FeedOp) : Option Transcript :=
  playOn (ScriptedFeed.names [feed]) (fun op => perform (actors feed (limit feed ops)) op) []
    (World.lone settings feed.plan feed.payload) (fun _ => []) [] ops

end FeedOp

end LazyHub.Scenario
