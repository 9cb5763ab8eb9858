import LazyHub.Scenario.Reaction
import LazyHub.Session.Operations

/-!
# Providers in the scenarios of a hub

Scenarios of a hub, of a single feed and of the power monitor have in common that they act on
in-process providers, and report which of the providers' counters each operation moved. `Payload`
is the payload of the first two: a script for the decoder, which may carry out operations of the
scenario before it emits its values.
-/

namespace LazyHub.Scenario

variable {H P Op : Type}

/-- A session of a scenario. -/
abbrev Stage (H P : Type) := Session Value H P Memory

instance : HasMemory (Stage H P) where
  memory := Session.memory
  modifyMemory f s := { s with memory := f s.memory }

/-- An act on a provider. -/
inductive SourceAct (P : Type) where
  /-- Change the payload without telling anyone. -/
  | set (payload : P)
  /-- Change the payload and tell the callback. -/
  | push (payload : P)
  /-- Tell the callback a payload that queries do not show. -/
  | announce (payload : P)
  /-- The same; then tell whether the last end of a registration was asked for on this thread. -/
  | announceAndSettle (payload : P)
  /-- Arm the provider to refuse its next call of one sort. -/
  | refuse (call : ProviderCall) (message : String)

/-- An act on one of several providers. -/
structure SourceOp (P : Type) where
  /-- The provider's number. -/
  source : Nat
  /-- Whether the act is carried out on a thread of its own. -/
  elsewhere : Bool
  /-- The act. -/
  act : SourceAct P

/-- Carry out an act on a thread of its own. -/
def onThread {α : Type} (act : Play (Stage H P) α) : Play (Stage H P) α := do
  let here := (← get).thread
  let number := (← Play.memory).threads + 1
  Play.remember fun m => { m with threads := number }
  modify fun s => { s with thread := .client number }
  let answer ← act
  modify fun s => { s with thread := here }
  pure answer

/-- Carry out an act on a provider. -/
def SourceAct.perform (c : Client Value H P Memory) (i : Nat) : SourceAct P → Play (Stage H P) Reply
  | set payload => do
    Act.setPayload i payload
    pure .nothing
  | push payload => do
    Act.push c i payload
    pure .nothing
  | announce payload => do
    Act.announce c i payload
    pure .nothing
  | announceAndSettle payload => do
    Act.announce c i payload
    pure (.truth ((← Act.source i).provider.unregisteredOn = some (← get).thread))
  | refuse call message => do
    Act.refuseNext i call message
    pure .nothing

/-- Carry out an act on one of several providers. -/
def SourceOp.perform (c : Client Value H P Memory) (op : SourceOp P) : Play (Stage H P) Reply :=
  if op.elsewhere then onThread (op.act.perform c op.source) else op.act.perform c op.source

/-- The counters of all providers, each under its name. -/
def countersOf (names : List String) (s : Stage H P) : List (String × LocalProvider.Counters) :=
  names.zip (s.world.sources.map (·.provider.counters))

/-- Carry out one operation and report on it. -/
def reportOn (names : List String) (perform : Op → Play (Stage H P) Reply) (op : Op) : Play (Stage H P) Line := do
  let before ← get
  let reply ← perform op
  let after ← get
  pure
    { reply
      moved := movedCounters (countersOf names before) (countersOf names after)
      journal := (after.journal.take (after.journal.length - before.journal.length)).reverse }

/-- Carry out a scenario on a stage, if it can be set up. `opening` are the journal entries of
setting it up, without those of a success. -/
def playOn (names : List String) (perform : Op → Play (Stage H P) Reply) (opening : List Entry)
    (stage : Except HubFailure (World Value H P)) (opened : World Value H P → List Entry)
    (extras : List (String × Reply)) (ops : List Op) : Option Transcript :=
  match stage with
  | .error failure => some { outcome := .error failure, opening, extras }
  | .ok world =>
    ((ops.mapM (reportOn names perform)).run { world, memory := {} }).map fun r =>
      { outcome := .ok r.1, opening := opening ++ opened world, extras }

/-- A payload that is a script for its decoder. -/
structure Payload (Op : Type) where
  /-- The values emitted. -/
  emissions : List (Emission Value)
  /-- How decoding fails in the end. -/
  failure : Option DecodeFailure := none
  /-- The operations carried out before anything is emitted. -/
  during : Option (List Op) := none

/-- A feed whose provider has scripted payloads. -/
structure ScriptedFeed (Op : Type) where
  /-- The feed. -/
  plan : FeedPlan Value
  /-- The provider's first payload. -/
  payload : Payload Op
  /-- The signal that the kind feeds, if its decoder emits one value for one signal. -/
  single : Option SignalId := none
  /-- What the provider announces before it answers a registration that it accepts. -/
  onRegister : Option (Payload Op) := none
  /-- What the provider announces when it is asked to end a registration. -/
  onUnregister : Option (Payload Op) := none

/-- The values a payload stands for, once its operations are carried out. -/
def Payload.outcome (single : Option SignalId) (p : Payload Op) : Except DecodeFailure (Emissions Value) :=
  match p.failure, single with
  | some failure, _ => .error failure
  | none, none => .ok ⟨p.emissions⟩
  | none, some signal =>
    match p.emissions with
    | e :: _ => Emissions.single signal (.ok e.value) .empty
    | [] => .ok .empty

/-- Decode a payload: carry out its operations, then emit. -/
def Payload.decode (nested : Op → Play (Stage H P) Reply) (single : Option SignalId) (p : Payload Op) :
    Play (Stage H P) (Except DecodeFailure (Emissions Value)) := do
  match p.during with
  | some ops => Play.actOut nested "decoder" ⟨0⟩ ops
  | none => pure ()
  pure (p.outcome single)

/-- The clients of scripted feeds: decoders and subscribers follow their scripts, and providers
announce what they are to announce. `inner` are the same clients, as decoders find them. -/
def ScriptedFeed.client (feeds : List (ScriptedFeed Op))
    (nested : Op → Play (Stage (Handler Op) (Payload Op)) Reply)
    (inner : Unit → Client Value (Handler Op) (Payload Op) Memory) :
    Client Value (Handler Op) (Payload Op) Memory where
  decode i payload := payload.decode nested (feeds[i]?.bind (·.single))
  call signal _ handler value := Play.react nested handler signal (some value)
  onRegister i :=
    match feeds[i]?.bind (·.onRegister) with
    | some payload => Act.announce (inner ()) i payload
    | none => pure ()
  onUnregister i :=
    match feeds[i]?.bind (·.onUnregister) with
    | some payload => Act.announce (inner ()) i payload
    | none => pure ()

/-- The names of the providers of scripted feeds: their numbers and kinds. -/
def ScriptedFeed.names (feeds : List (ScriptedFeed Op)) : List String :=
  feeds.zipIdx.map fun (f, i) => s!"{i}:{f.plan.kind.name}"

end LazyHub.Scenario
