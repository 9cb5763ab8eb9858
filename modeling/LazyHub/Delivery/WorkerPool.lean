import LazyHub.Journal
import LazyHub.Step

/-!
# The worker pool

Notifications are delivered off the thread that detected the change. A `WorkerPool` has a fixed
number of workers, each with a queue; a signal's jobs all go to the worker that the signal's
identity selects, so they are taken up in the order in which they were posted. Between signals
of different workers there is no order.

A flush sends a marker behind everything queued at each worker, one worker after another, and is
resolved when all its markers have been taken up or lost with a worker that ended.

A worker that takes up a job holds it as `current` until it is finished, and takes up nothing
else meanwhile. A panic that is not caught ends the worker for good: its queue is lost and later
posts to it are refused.
-/

namespace LazyHub

open Text

/-- What travels in a queue: a job for a signal, or the marker of a flush. -/
inductive Parcel (J : Type) where
  /-- A job to be done for a signal. -/
  | job (signal : SignalId) (job : J)
  /-- The marker of a flush. -/
  | marker (flush : Nat)
deriving DecidableEq

/-- A worker: jobs `J` wait in its queue, and `D` is what it holds of a job it has taken up. -/
structure Worker (J D : Type) where
  /-- What waits, first one first. -/
  queue : List (Parcel J) := []
  /-- The job being done. -/
  current : Option D := none
  /-- Whether the worker still serves its queue. -/
  alive : Bool := true
deriving DecidableEq

/-- A flush that is not resolved yet. -/
structure Flush where
  /-- The flush's number. -/
  number : Nat
  /-- The worker that is sent a marker next; those before it have been sent theirs. -/
  next : Nat
  /-- The workers whose marker is still queued. -/
  awaited : List Nat
deriving DecidableEq

/-- A fixed number of workers and the flushes under way. -/
structure WorkerPool (J D : Type) where
  /-- The workers. -/
  workers : List (Worker J D)
  /-- Whether panics are caught. -/
  catches : Bool
  /-- The flushes under way. -/
  flushes : List Flush := []
  /-- How many flushes were started. -/
  flushCount : Nat := 0
deriving DecidableEq

namespace WorkerPool

variable {J D : Type}

/-- A pool of idle workers. -/
def ofSize (workers : Nat) (catches : Bool) : WorkerPool J D :=
  { workers := List.replicate workers {}, catches }

/-- How many workers there are. -/
def size (p : WorkerPool J D) : Nat := p.workers.length

/-- The worker that serves a signal. -/
def shard (p : WorkerPool J D) (signal : SignalId) : Nat := signal.index % p.size

/-- Change one worker. -/
def modifyWorker (p : WorkerPool J D) (w : Nat) (f : Worker J D → Worker J D) : WorkerPool J D :=
  { p with workers := p.workers.modify w f }

/-- Change one flush. -/
def modifyFlush (p : WorkerPool J D) (number : Nat) (f : Flush → Flush) : WorkerPool J D :=
  { p with flushes := p.flushes.map fun x => if x.number = number then f x else x }

/-- Put something at the end of a worker's queue, and tell whether the worker accepts it. -/
def send (p : WorkerPool J D) (w : Nat) (parcel : Parcel J) : Bool × WorkerPool J D :=
  if (p.workers[w]?.map (·.alive)).getD false then
    (true, p.modifyWorker w fun x => { x with queue := x.queue ++ [parcel] })
  else (false, p)

/-- Queue a job for a signal, and tell whether its worker accepts it. -/
def post (p : WorkerPool J D) (signal : SignalId) (job : J) : Bool × WorkerPool J D :=
  p.send (p.shard signal) (.job signal job)

/-- Start a flush. Its number is how many were started before. -/
def startFlush (p : WorkerPool J D) : WorkerPool J D :=
  { p with flushes := p.flushes ++ [⟨p.flushCount, 0, []⟩], flushCount := p.flushCount + 1 }

/-- The flush under way with a number. -/
def flush? (p : WorkerPool J D) (number : Nat) : Option Flush :=
  p.flushes.find? (·.number = number)

/-- Send a flush's marker to the next worker; a worker that has ended needs none. -/
def mark (p : WorkerPool J D) (number : Nat) : Option (WorkerPool J D) :=
  match p.flush? number with
  | some f =>
    if f.next < p.size then
      let (sent, q) := p.send f.next (.marker number)
      some (q.modifyFlush number fun f =>
        { f with next := f.next + 1, awaited := if sent then f.awaited ++ [f.next] else f.awaited })
    else none
  | none => none

/-- Whether every marker of a flush was sent and none is queued any more. -/
def isResolved (p : WorkerPool J D) (number : Nat) : Bool :=
  match p.flush? number with
  | some f => f.next = p.size && f.awaited.isEmpty
  | none => false

/-- End a flush that is resolved. -/
def resolve (p : WorkerPool J D) (number : Nat) : Option (WorkerPool J D) :=
  if p.isResolved number then
    some { p with flushes := p.flushes.filter (·.number ≠ number) }
  else none

/-- What a worker takes up next: the head of its queue, if it is alive and has no job. -/
def next? (p : WorkerPool J D) (w : Nat) : Option (Parcel J) :=
  match p.workers[w]? with
  | some x => if x.alive && x.current.isNone then x.queue.head? else none
  | none => none

/-- Let a worker take up the next thing in its queue. A job becomes current in the form that
`start` gives it; a marker counts for its flush. -/
def take (p : WorkerPool J D) (w : Nat) (start : SignalId → J → D) : Option (WorkerPool J D) :=
  match p.next? w with
  | some (.job signal job) =>
    some (p.modifyWorker w fun x => { x with queue := x.queue.tail, current := some (start signal job) })
  | some (.marker number) =>
    some ((p.modifyWorker w fun x => { x with queue := x.queue.tail }).modifyFlush number
      fun f => { f with awaited := f.awaited.filter (· ≠ w) })
  | none => none

/-- The job a worker is doing. -/
def current? (p : WorkerPool J D) (w : Nat) : Option D := p.workers[w]?.bind (·.current)

/-- Change the job a worker is doing. -/
def setCurrent (p : WorkerPool J D) (w : Nat) (d : D) : WorkerPool J D :=
  p.modifyWorker w fun x => { x with current := some d }

/-- Let a worker finish its job. -/
def finish (p : WorkerPool J D) (w : Nat) : WorkerPool J D :=
  p.modifyWorker w fun x => { x with current := none }

/-- End a worker for good, with all that waits in its queue. -/
def collapse (p : WorkerPool J D) (w : Nat) : WorkerPool J D :=
  let q := p.modifyWorker w fun _ => { queue := [], current := none, alive := false }
  { q with flushes := q.flushes.map fun f => { f with awaited := f.awaited.filter (· ≠ w) } }

/-- Whether a worker is alive and has nothing left to do. -/
def isIdle (p : WorkerPool J D) (w : Nat) : Bool :=
  match p.workers[w]? with
  | some x => x.alive && x.current.isNone && x.queue.isEmpty
  | none => false

/-- The first worker that has something to take up. -/
def firstReady? (p : WorkerPool J D) : Option Nat :=
  (List.range p.size).find? fun w => (p.next? w).isSome

/-- The form used in diagnostics. -/
def inspect (p : WorkerPool J D) : String :=
  Diagnostic.record "Dispatcher" [("workers", toString p.size)]

end WorkerPool

/-- The steps of a pool whose jobs are left to its clients. -/
inductive PoolMove (J : Type) where
  /-- A job is posted. -/
  | post (signal : SignalId) (job : J)
  /-- A flush starts. -/
  | startFlush
  /-- A flush sends its next marker. -/
  | mark (number : Nat)
  /-- A flush that is resolved ends. -/
  | resolve (number : Nat)
  /-- A worker takes up the next thing in its queue. -/
  | take (worker : Nat)
  /-- A worker's job ends, with or without a panic. -/
  | finish (worker : Nat) (panicked : Bool)

/-- One step of a pool. A panic is caught and noted, or ends the worker. -/
def WorkerPool.step {J : Type} (p : WorkerPool J (SignalId × J)) :
    PoolMove J → Option (Stepped (WorkerPool J (SignalId × J)) Entry)
  | .post signal job =>
    let (accepted, q) := p.post signal job
    some { state := q, effects := if accepted then [] else [.workerGone signal] }
  | .startFlush => some { state := p.startFlush }
  | .mark number => (p.mark number).map fun q => { state := q }
  | .resolve number => (p.resolve number).map fun q => { state := q }
  | .take w => (p.take w Prod.mk).map fun q => { state := q }
  | .finish w panicked =>
    match p.current? w with
    | none => none
    | some (signal, _) =>
      if !panicked then some { state := p.finish w }
      else if p.catches then some { state := p.finish w, effects := [.deliveryPanicked signal] }
      else some { state := p.collapse w }

end LazyHub
