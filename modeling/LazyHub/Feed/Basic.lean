import LazyHub.Emissions
import LazyHub.Gate
import LazyHub.Provider.Local
import LazyHub.Subscribers

/-!
# Feeds

A `Feed` joins one provider to the signals it feeds. Each of these is an `Outlet`: a key, the
gate in front of the signal's last known value, and the signal's subscribers. Of the provider
the feed knows only its registration, if it has one.

Two locks order what clients, the provider and decoders do to a feed. The *state lock* covers the
registration and the count of subscriptions; whoever holds it is described by a `Section`, which
says what the holder waits for. The *update lock* covers writes to the gates; its holder is a
`Writer`. Payloads pushed by the provider are decoded under no lock at all, so any number of
them can be under way; each is a `Push`.

An *epoch* counts the changes between active and inactive. A callback carries the epoch in which
it was made, and what it delivers is used only if that epoch is still the current one.
-/

namespace LazyHub

variable {V H R : Type}

/-- One signal of a feed. -/
structure Outlet (V H : Type) where
  /-- The signal's key. -/
  key : Key
  /-- The gate in front of the signal's last known value. -/
  gate : Gate V
  /-- The signal's subscribers. -/
  subscribers : Subscribers H := .empty

namespace Outlet

/-- Whether a value may be written to the outlet: it has the type of the outlet's signal. -/
def accepts [SignalValue V] (o : Outlet V H) (value : V) : Bool :=
  SignalValue.typeOf value = o.key.type

end Outlet

/-- What the holder of the state lock wants from a pull of the provider's payload. -/
inductive Purpose (H : Type) where
  /-- The values alone. -/
  | refresh
  /-- An active feed. -/
  | activate
  /-- An active feed and a subscription to one of its signals. -/
  | subscribe (signal : SignalId) (token : Token) (handler : H)
deriving DecidableEq

/-- Where the end of a registration is asked for. -/
inductive Place where
  /-- On the thread of the client that caused it. -/
  | inPlace
  /-- On the runtime's pool for blocking work. -/
  | pool
deriving DecidableEq

/-- What the holder of the state lock is doing. -/
inductive Section (V H R : Type) where
  /-- It waits for the answer to a query. -/
  | querying (purpose : Purpose H)
  /-- It has the payload on loan and waits for the decoder. -/
  | decoding (purpose : Purpose H) (payload : R)
  /-- It has decoded values and waits for the update lock. -/
  | seeding (purpose : Purpose H) (values : List (Emission V))
  /-- It writes the values under the update lock. -/
  | writing (purpose : Purpose H)
  /-- It waits for the answer to a registration. -/
  | registering (purpose : Purpose H)
  /-- It drops all subscribers: those of the outlets before `next` are gone, `dropped` in number. -/
  | clearing (next dropped : Nat)
  /-- It is about to end the registration. -/
  | withdrawing
  /-- It waits for the answer to the end of a registration. -/
  | unregistering (registration : Registration) (place : Place)

/-- How far a pushed payload has come. -/
inductive PushPhase (V R : Type) where
  /-- The payload is on loan and the decoder runs. -/
  | decoding (payload : R)
  /-- The values are decoded and wait for the update lock. -/
  | ready (values : List (Emission V))
  /-- The values are written under the update lock. -/
  | writing
  /-- Nothing is left to do but to let go of the feed. -/
  | leaving

/-- A pushed payload under way. -/
structure Push (V R : Type) where
  /-- The push's number. -/
  number : Nat
  /-- The epoch of the callback it came through. -/
  epoch : Nat
  /-- How far it has come. -/
  phase : PushPhase V R

/-- A change that a push has made to a signal, until the push is done with it. -/
inductive News (V : Type) where
  /-- There is none. -/
  | none
  /-- The gate has let the value through. Whether anyone is subscribed is yet to be seen. -/
  | fresh (e : Emission V)
  /-- Somebody was subscribed, and the value is yet to be posted. -/
  | wanted (e : Emission V)

/-- The holder of the update lock. -/
structure Writer (V : Type) where
  /-- The push whose values are written, or nothing if the holder of the state lock writes. -/
  push : Option Nat
  /-- The values still to be written, first one first. -/
  rest : List (Emission V)
  /-- The change made by the value written last, if it is not dealt with yet. -/
  news : News V := .none

/-- One provider's signals, as shared by all that use them. -/
structure Feed (V H R : Type) where
  /-- The provider's kind. -/
  kind : Kind
  /-- The signals fed, in the order of their declaration. -/
  outlets : List (Outlet V H)
  /-- The registration held, if the feed is active. -/
  registration : Option Registration := none
  /-- How many subscriptions are counted. -/
  subscriptionCount : Nat := 0
  /-- The current epoch. -/
  epoch : Nat := 0
  /-- What the holder of the state lock is doing, if it is held. -/
  holder : Option (Section V H R) := none
  /-- The holder of the update lock, if it is held. -/
  writer : Option (Writer V) := none
  /-- The pushes under way. -/
  pushes : List (Push V R) := []
  /-- How many pushes there have been. -/
  pushCount : Nat := 0
  /-- The epochs of the callbacks that the provider may still invoke. -/
  callbacks : List Nat := []
  /-- How many handles keep the feed alive; pushes under way do too. -/
  handles : Nat := 1
  /-- Whether the last owner left a registration behind for the pool to end. -/
  retiring : Bool := false

/-- A signal to be declared: its key and the value it starts from. -/
structure Declaration (V : Type) where
  /-- The signal's key. -/
  key : Key
  /-- The value it starts from. -/
  initial : V

/-- A feed to be assembled: the provider's kind and the signals it feeds. -/
structure FeedPlan (V : Type) where
  /-- The provider's kind. -/
  kind : Kind
  /-- The signals, in order. -/
  signals : List (Declaration V)

namespace Feed

/-- The inactive feed of a plan, with one handle. -/
def ofPlan (plan : FeedPlan V) : Feed V H R :=
  { kind := plan.kind, outlets := plan.signals.map fun d => { key := d.key, gate := .ofInitial d.initial } }

/-- The outlet that answers to a signal: the first one declared with its identity. -/
def outlet? (f : Feed V H R) (signal : SignalId) : Option (Outlet V H) :=
  f.outlets.find? (·.key.id = signal)

/-- Change the first outlet with a signal's identity. -/
def modifyFirst (signal : SignalId) (change : Outlet V H → Outlet V H) :
    List (Outlet V H) → List (Outlet V H)
  | [] => []
  | o :: rest => if o.key.id = signal then change o :: rest else o :: modifyFirst signal change rest

/-- Change the outlet that answers to a signal. -/
def modifyOutlet (f : Feed V H R) (signal : SignalId) (change : Outlet V H → Outlet V H) : Feed V H R :=
  { f with outlets := modifyFirst signal change f.outlets }

/-- The last known value of a signal. -/
def cached? (f : Feed V H R) (signal : SignalId) : Option V := (f.outlet? signal).map (·.gate.value)

/-- The last known value of a key's signal, if the feed has the signal with the key's type. -/
def cached (f : Feed V H R) (key : Key) : Except HubFailure V :=
  match f.outlet? key.id with
  | none => .error (.unknownSignal key.id)
  | some o => if o.key.type = key.type then .ok o.gate.value else .error (.typeMismatch key.id key.type)

/-- Whether the feed holds a registration. -/
def isActive (f : Feed V H R) : Bool := f.registration.isSome

/-- How many are subscribed to a signal. -/
def subscriberCount (f : Feed V H R) (signal : SignalId) : Nat :=
  match f.outlet? signal with
  | some o => o.subscribers.size
  | none => 0

/-- How many are subscribed to any signal of the feed. -/
def totalSubscribers (f : Feed V H R) : Nat := (f.outlets.map (·.subscribers.size)).foldr (· + ·) 0

/-- How many owners keep the feed alive. -/
def owners (f : Feed V H R) : Nat := f.handles + f.pushes.length

/-- The push with a number. -/
def push? (f : Feed V H R) (number : Nat) : Option (Push V R) := f.pushes.find? (·.number = number)

/-- Record how far a push has come. -/
def setPhase (f : Feed V H R) (number : Nat) (phase : PushPhase V R) : Feed V H R :=
  { f with pushes := f.pushes.map fun p => if p.number = number then { p with phase } else p }

/-- Whether the values decoded from a payload may be written: every one is for a signal of the
feed and has the signal's type. The first that is not decides the failure. -/
def check [SignalValue V] (f : Feed V H R) : List (Emission V) → Except DecodeFailure Unit
  | [] => .ok ()
  | e :: rest =>
    match f.outlet? e.signal with
    | none => .error (.foreignSignal e.signal)
    | some o => if o.accepts e.value then f.check rest else .error (.wrongType e.signal o.key.type)

/-- The values of a payload, given what its decoder made of it: all of them, if the decoder
succeeded and every one may be written. -/
def admissible [SignalValue V] (f : Feed V H R) (decoded : Except DecodeFailure (Emissions V)) :
    Except DecodeFailure (List (Emission V)) :=
  match decoded with
  | .error failure => .error failure
  | .ok out => (f.check out.toList).map fun _ => out.toList

end Feed

end LazyHub
