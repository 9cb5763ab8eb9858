import LazyHub.World

/-!
# Sessions

A `Session` is a world seen from the clients that use it: the world, the journal so far, and
what the clients remember. An `Act` is something a client does from its beginning to its end; it
yields nothing if it never ends, because a lock it needs is not let go of, or because it runs
out of the steps it was granted.

Acts change the world only through `perform`, which makes one atomic step. The clients' own code,
which decodes payloads and is called with changes, is a `Client`: acts in their turn, so that
decoders and subscribers can use the hub that runs them.
-/

namespace LazyHub

/-- A world as its clients see it. `X` is what the clients remember. -/
structure Session (V H R X : Type) where
  /-- The world. -/
  world : World V H R
  /-- The journal, latest entry first. -/
  journal : List Entry := []
  /-- The thread on which the client acts. -/
  thread : Thread := .client 0
  /-- What the clients remember. -/
  memory : X

/-- Something a client does from beginning to end, unless it never ends. -/
abbrev Act (V H R X : Type) := StateT (Session V H R X) Option

/-- The clients' own code. -/
structure Client (V H R X : Type) where
  /-- What the decoder of a feed makes of a payload. -/
  decode (feed : Nat) (payload : R) : Act V H R X (Except DecodeFailure (Emissions V))
  /-- What a subscriber does when it is called, and whether it panics. -/
  call (signal : SignalId) (token : Token) (handler : H) (value : V) : Act V H R X Bool
  /-- What a provider does between installing a callback and answering. -/
  onRegister (feed : Nat) : Act V H R X Unit := pure ()
  /-- What a provider does when it is asked to end a registration, before anything else. -/
  onUnregister (feed : Nat) : Act V H R X Unit := pure ()

/-- The journal entries among the effects of a step, latest first. -/
def notedEntries {V H : Type} : List (HubEffect V H) → List Entry
  | [] => []
  | .noted entry :: rest => notedEntries rest ++ [entry]
  | _ :: rest => notedEntries rest

namespace Act

variable {V H R X : Type}

/-- An act that never ends. -/
def stuck {α : Type} : Act V H R X α := fun _ => none

/-- Make one atomic step, and hear the answer of the operation that it completes. -/
def perform [SignalValue V] (label : WorldLabel V H R) : Act V H R X (Option Answer) := fun s =>
  match s.world.step label with
  | none => none
  | some r => some (r.answer, { s with world := r.state, journal := notedEntries r.effects ++ s.journal })

/-- Make one atomic step that completes an operation, and hear the operation's answer. -/
def performLast [SignalValue V] (label : WorldLabel V H R) : Act V H R X Answer := do
  match ← perform label with
  | some answer => pure answer
  | none => stuck

/-- Make one atomic step that completes nothing. -/
def performOn [SignalValue V] (label : WorldLabel V H R) : Act V H R X Unit := do
  match ← perform label with
  | some _ => stuck
  | none => pure ()

/-- Write an entry into the journal. -/
def note (entry : Entry) : Act V H R X Unit := fun s => some ((), { s with journal := entry :: s.journal })

/-- Look at the hub. -/
def hub : Act V H R X (Hub V H R) := do pure (← get).world.hub

/-- Look at a feed. -/
def feed (i : Nat) : Act V H R X (Feed V H R) := do
  match (← hub).feeds[i]? with
  | some f => pure f
  | none => stuck

/-- Look at a feed's provider. -/
def source (i : Nat) : Act V H R X (Source R) := do
  match (← get).world.sources[i]? with
  | some s => pure s
  | none => stuck

/-- Let a feed move on. -/
def advance [SignalValue V] (i : Nat) (move : FeedMove V) : Act V H R X (Option Answer) :=
  perform (.move (.advance i move))

end Act

/-- Client code that never returns. -/
def Client.stuck {V H R X : Type} : Client V H R X where
  decode _ _ := Act.stuck
  call _ _ _ _ := Act.stuck
  onRegister _ := Act.stuck
  onUnregister _ := Act.stuck

end LazyHub
