import LazyHub.Delivery.WorkerPool
import LazyHub.Feed.Step
import LazyHub.Settings

/-!
# Hubs

A `Hub` brings feeds together behind one set of keys. A signal is served by the feed that
declares it (`Hub.route`), changes are delivered by a worker pool that all feeds share, and
subscriptions are numbered by one counter.

`Hub.assemble` accepts a list of feed plans exactly if no signal is declared twice. Nothing is
asked of any provider before a client reads or subscribes.

A client holds handles on the hub. When the last one goes the hub closes: its feeds are shut
down one after another and then let go of.
-/

namespace LazyHub

open Text

variable {V H R : Type}

/-- A value owed to whoever is subscribed to a signal when its delivery starts. -/
structure Notice (V : Type) where
  /-- The feed the signal belongs to. -/
  feed : Nat
  /-- The value. -/
  value : V
deriving DecidableEq

/-- A delivery under way: the subscribers it found when it started, and how far it has come. -/
structure Delivery (V H : Type) where
  /-- The signal whose value is delivered. -/
  signal : SignalId
  /-- The value delivered. -/
  value : V
  /-- Those still to be called, in order. -/
  waiting : List (Token × H)
  /-- The one being called. -/
  calling : Option (Token × H) := none

/-- A subscription that has its token and has yet to reach its feed. -/
structure Request (H : Type) where
  /-- The token drawn for it. -/
  token : Token
  /-- The key subscribed to. -/
  key : Key
  /-- What is subscribed. -/
  handler : H

/-- Whether clients still hold a hub. -/
inductive Life where
  /-- So many handles are held. -/
  | held (handles : Nat)
  /-- The last handle is gone, and the feeds before this one are shut down. -/
  | closing (next : Nat)
  /-- The feeds are let go of. -/
  | closed
deriving DecidableEq

/-- Feeds behind one set of keys. -/
structure Hub (V H R : Type) where
  /-- The feeds, in the order of their plans. -/
  feeds : List (Feed V H R)
  /-- The workers that deliver changes. -/
  pool : WorkerPool (Notice V) (Delivery V H)
  /-- The number of the next token. -/
  nextToken : Nat := 1
  /-- Subscriptions that have yet to reach their feeds. -/
  requests : List (Request H) := []
  /-- Whether clients still hold the hub. -/
  life : Life := .held 1

/-- The first item of a list that occurs before itself, after the items already seen. -/
def firstRepeated? {α : Type} [DecidableEq α] (seen : List α) : List α → Option α
  | [] => none
  | a :: rest => if a ∈ seen then some a else firstRepeated? (a :: seen) rest

namespace Hub

/-- The signals declared by some plans, in order. -/
def declared (plans : List (FeedPlan V)) : List SignalId :=
  plans.flatMap fun plan => plan.signals.map (·.key.id)

/-- A hub over some plans, refused if there is nothing to run its workers on or if a signal is
declared twice. -/
def assemble (settings : Settings) (plans : List (FeedPlan V)) : Except HubFailure (Hub V H R) :=
  match settings.requireRuntime with
  | .error failure => .error failure
  | .ok () =>
    match firstRepeated? [] (declared plans) with
    | some signal => .error (.duplicateSignal signal)
    | none =>
      .ok { feeds := plans.map Feed.ofPlan, pool := .ofSize settings.workerCount settings.catches }

/-- A single feed that belongs to no hub, so that its clients hold the feed itself. Its signals
are not checked for repetition: the first of several with one identity answers to it. -/
def lone (settings : Settings) (plan : FeedPlan V) : Except HubFailure (Hub V H R) :=
  settings.requireRuntime.map fun () =>
    { feeds := [Feed.ofPlan plan], pool := .ofSize settings.workerCount settings.catches, life := .closed }

/-- The outlets of all feeds, each with its feed's number and kind. -/
def outlets (h : Hub V H R) : List (Nat × Kind × Outlet V H) :=
  h.feeds.zipIdx.flatMap fun (f, i) => f.outlets.map fun o => (i, f.kind, o)

/-- The journal entry of a hub's assembly. -/
def assembledEntry (h : Hub V H R) : Entry :=
  .assembled h.feeds.length h.outlets.length h.pool.size

/-- The feed that serves a signal, and the outlet that answers to it. -/
def find? (h : Hub V H R) (signal : SignalId) : Option (Nat × Kind × Outlet V H) :=
  h.outlets.find? (·.2.2.key.id = signal)

/-- The feed that serves a signal. -/
def feedOf? (h : Hub V H R) (signal : SignalId) : Option Nat := (h.find? signal).map (·.1)

/-- The feed that serves a key's signal with the key's type. -/
def route (h : Hub V H R) (key : Key) : Except HubFailure Nat :=
  match h.find? key.id with
  | none => .error (.unknownSignal key.id)
  | some (i, _, o) => if o.key.type = key.type then .ok i else .error (.typeMismatch key.id key.type)

/-- The last known value of a signal. -/
def cached? (h : Hub V H R) (signal : SignalId) : Option V := (h.find? signal).map (·.2.2.gate.value)

/-- How many are subscribed to a signal; nobody is to one the hub does not have. -/
def subscriberCount (h : Hub V H R) (signal : SignalId) : Nat :=
  match h.find? signal with
  | some (_, _, o) => o.subscribers.size
  | none => 0

/-- Whether the feed that serves a signal is active. -/
def isActive (h : Hub V H R) (signal : SignalId) : Bool :=
  match (h.feedOf? signal).bind (h.feeds[·]?) with
  | some f => f.isActive
  | none => false

/-- Every signal with its name and its feed's kind, in ascending order of signal. -/
def signals (h : Hub V H R) : List (SignalId × String × Kind) :=
  (h.outlets.map fun (_, kind, o) => (o.key.id, o.key.name, kind)).mergeSort
    fun a b => a.1.index ≤ b.1.index

/-- How many handles clients hold. -/
def handles (h : Hub V H R) : Nat :=
  match h.life with
  | .held n => n
  | _ => 0

/-- Whether no operation holds the state lock of any feed. -/
def isQuiet (h : Hub V H R) : Bool := h.feeds.all (·.holder.isNone)

/-- Whether nobody can send to the workers any more: neither the hub nor a feed is owned. -/
def isAbandoned (h : Hub V H R) : Bool := h.life = .closed && h.feeds.all fun f => f.owners = 0 && !f.retiring

/-- Those subscribed to a signal of a feed now. -/
def subscribersOf (h : Hub V H R) (feed : Nat) (signal : SignalId) : List (Token × H) :=
  match h.feeds[feed]?.bind (·.outlet? signal) with
  | some o => o.subscribers.snapshot
  | none => []

/-- The form used in diagnostics. -/
def inspect (h : Hub V H R) : String :=
  Diagnostic.record "NotificationHub"
    [("bindings", toString h.feeds.length), ("signals", toString h.outlets.length),
      ("dispatcher", h.pool.inspect)]

end Hub

end LazyHub
