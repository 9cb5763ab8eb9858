import LazyHub.Scenario.Source

/-!
# Holding a hub in a scenario

What scenarios with a hub and scenarios with the power monitor have in common. The actors hold
handles on the hub, and an operation holds one of its own while it runs, so a hub whose last
handle is dropped meanwhile closes when the operation ends. Tokens and guards are kept under the
labels of their subscribers.
-/

namespace LazyHub.Scenario

/-- How a subscription is named. -/
inductive TokenRef where
  /-- By the label it was made under. -/
  | label (label : String)
  /-- By its token. -/
  | token (token : Token)

namespace Holding

variable {P Op : Type}

/-- The actors of a scenario. -/
abbrev Actors (P Op : Type) := Client Value (Handler Op) P Memory

/-- An act of a scenario. -/
abbrev Scene (P Op : Type) := Play (Stage (Handler Op) P)

/-- Act with a handle of one's own, if any handle is kept. -/
def withHub (c : Actors P Op) (act : Scene P Op Reply) : Scene P Op Reply := do
  if (← Play.memory).handles = 0 then pure (.refused .noHub) else Act.withHandle c act

/-- Look at the hub with a handle of one's own, if any handle is kept. -/
def looking (c : Actors P Op) (look : Hub Value (Handler Op) P → Reply) : Scene P Op Reply :=
  withHub c do pure (look (← Act.hub))

/-- End the subscription of a guard, if the hub is still held by anyone. -/
def endGuarded (c : Actors P Op) (g : Guard) : Scene P Op Unit := do
  if (← Act.hub).handles = 0 then pure () else Act.withHandle c (Act.unsubscribe c g.signal g.token)

/-- Keep a guard under a label; one that was kept there is dropped. -/
def keepGuard (c : Actors P Op) (label : String) (g : Guard) : Scene P Op Unit := do
  let earlier := (← Play.memory).guards.get? label
  Play.remember fun m => { m with guards := m.guards.put label g }
  match earlier with
  | some old => endGuarded c old
  | none => pure ()

/-- Drop the guard kept under a label, and tell whether there was one. -/
def dropGuard (c : Actors P Op) (label : String) : Scene P Op Reply := do
  match (← Play.memory).guards.get? label with
  | some g =>
    Play.remember fun m => { m with guards := m.guards.erase label }
    endGuarded c g
    pure (.truth true)
  | none => pure (.truth false)

/-- Turn the guard kept under a label into its token, which is kept there instead. -/
def disarmGuard (label : String) : Scene P Op Reply := do
  match (← Play.memory).guards.get? label with
  | some g =>
    Play.remember fun m => { m with guards := m.guards.erase label, tokens := m.tokens.put label g.token }
    pure (.number g.token.serial)
  | none => pure .nothing

/-- The token that a reference stands for. -/
def resolve : TokenRef → Scene P Op (Option Token)
  | .token token => pure (some token)
  | .label label => do pure ((← Play.memory).tokens.get? label)

/-- Subscribe, and reply with the token. -/
def subscribe (c : Actors P Op) (key : Key) (reaction : Reaction Op) : Scene P Op Reply :=
  withHub c do
    let handler ← Play.make reaction
    match ← Act.subscribe c key handler with
    | .ok token =>
      Play.remember fun m => { m with tokens := m.tokens.put reaction.label token }
      pure (.record [("token", .number token.serial), ("shown", .text token.display)])
    | .error failure => pure (.hubFailure failure)

/-- Subscribe under a guard, and reply with the guard. -/
def guarded (c : Actors P Op) (key : Key) (reaction : Reaction Op) : Scene P Op Reply :=
  withHub c do
    let handler ← Play.make reaction
    match ← Act.subscribe c key handler with
    | .ok token =>
      let g : Guard := ⟨key.id, token⟩
      keepGuard c reaction.label g
      pure
        (.record [("token", .number token.serial), ("signal", .number key.id.index), ("debug", .text g.inspect)])
    | .error failure => pure (.hubFailure failure)

/-- End a subscription. -/
def unsubscribe (c : Actors P Op) (signal : SignalId) (subscription : TokenRef) : Scene P Op Reply :=
  withHub c do
    match ← resolve subscription with
    | some token =>
      Act.unsubscribe c signal token
      pure .nothing
    | none => pure (.refused .noToken)

/-- The current value of a signal. -/
def read (c : Actors P Op) (key : Key) : Scene P Op Reply :=
  withHub c do pure (.ofValue (← Act.read c key))

/-- Have everything delivered, and report the log by worker. -/
def flush (c : Actors P Op) (turns : Nat) : Scene P Op Reply :=
  withHub c do
    Act.flush c turns
    pure (byWorker (← Act.hub).pool.size (← Play.takeCalls))

/-- Drop every subscription. -/
def shutdown (c : Actors P Op) : Scene P Op Reply :=
  withHub c do
    Act.shutdown c
    pure .nothing

/-- All signals with their names and kinds. -/
def signals (c : Actors P Op) : Scene P Op Reply :=
  looking c fun h =>
    .list (h.signals.map fun (s, name, kind) => .list [.number s.index, .text name, .text kind.name])

/-- Keep one more handle, if any is kept, and tell how many are kept then. -/
def clone : Scene P Op Reply := do
  if (← Play.memory).handles = 0 then pure (.refused .noHub)
  else
    Act.cloneHandle
    Play.keepHandle

/-- Drop the newest handle kept, if there is one, and tell how many are kept then. -/
def drop (c : Actors P Op) : Scene P Op Reply := do
  if 0 < (← Play.memory).handles then
    Play.loseHandle
    Act.dropHandle c
  Play.countHandles

end Holding

end LazyHub.Scenario
