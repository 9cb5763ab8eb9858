import LazyHub.Delivery.WorkerPool
import LazyHub.Scenario.Reaction
import LazyHub.Settings

/-!
# Scenarios with a worker pool

Jobs are posted for signals and carried out when the pool is flushed. A job acts as a subscriber
that is told of a change, and may post jobs itself. The workers work only during a flush.
-/

namespace LazyHub.Scenario

/-- An operation on a worker pool. -/
inductive PoolOp where
  /-- Post a job. -/
  | post (signal : SignalId) (reaction : Reaction PoolOp)
  /-- How many workers there are. -/
  | workers
  /-- Whether panics are caught. -/
  | catches
  /-- The form used in diagnostics. -/
  | inspect
  /-- Whether blocking work is carried out on the thread that asks for it. -/
  | blocking
  /-- Have all jobs done, and report the log by worker. -/
  | flush

mutual

/-- How many operations an operation can lead to. -/
def PoolOp.weight : PoolOp → Nat
  | .post _ ⟨_, _, actions, times, _⟩ => 1 + times * PoolOp.weightOfActions actions
  | _ => 1

/-- How many operations a job's operations can lead to. -/
def PoolOp.weightOfActions : Option (List PoolOp) → Nat
  | none => 0
  | some ops => PoolOp.weightOfList ops

/-- How many operations a list of operations can lead to. -/
def PoolOp.weightOfList : List PoolOp → Nat
  | [] => 0
  | op :: rest => op.weight + PoolOp.weightOfList rest

end

namespace PoolOp

/-- A pool whose jobs are a scenario's. -/
abbrev Pool := WorkerPool (Handler PoolOp) (SignalId × Handler PoolOp)

/-- A pool in the course of a scenario. -/
structure State where
  /-- The pool. -/
  pool : Pool
  /-- The journal, latest entry first. -/
  journal : List Entry := []
  /-- What labels stand for. -/
  memory : Memory := {}

instance : HasMemory State where
  memory := State.memory
  modifyMemory f s := { s with memory := f s.memory }

/-- Make one step of the pool. -/
def move (m : PoolMove (Handler PoolOp)) : Play State Unit := fun s =>
  match s.pool.step m with
  | none => none
  | some r => some ((), { s with pool := r.state, journal := r.effects.reverse ++ s.journal })

/-- Have the workers work until no queue holds anything, in at most so many turns. -/
def drain (nested : PoolOp → Play State Reply) : Nat → Play State Unit
  | 0 => Play.stuck
  | n + 1 => do
    match (← get).pool.firstReady? with
    | none => pure ()
    | some worker =>
      move (.take worker)
      match (← get).pool.current? worker with
      | some (signal, handler) =>
        let panicked ← Play.react nested handler signal none
        move (.finish worker panicked)
      | none => pure ()
      drain nested n

/-- Carry out one operation, given how jobs carry out theirs and how many turns a flush has. -/
def perform (turns : Nat) (nested : PoolOp → Play State Reply) : PoolOp → Play State Reply
  | post signal reaction => do
    let handler ← Play.make { reaction with style := .notify }
    move (.post signal handler)
    pure .nothing
  | workers => do pure (.number (← get).pool.size)
  | catches => do pure (.truth (← get).pool.catches)
  | inspect => do pure (.text (← get).pool.inspect)
  | blocking => pure (.truth false)
  | flush => do
    let number := (← get).pool.flushCount
    move .startFlush
    (List.range (← get).pool.size).forM fun _ => move (.mark number)
    drain nested turns
    move (.resolve number)
    pure (byWorker (← get).pool.size (← Play.takeCalls))

/-- Carry out one operation, with jobs' operations nested at most so deep. -/
def performAt (turns : Nat) : Nat → PoolOp → Play State Reply
  | 0 => fun _ => Play.stuck
  | n + 1 => perform turns fun op => performAt turns n op

/-- Carry out one operation and report on it. -/
def report (turns depth : Nat) (op : PoolOp) : Play State Line := do
  let earlier := (← get).journal.length
  let reply ← performAt turns depth op
  let journal := (← get).journal
  pure { reply, journal := (journal.take (journal.length - earlier)).reverse }

/-- Carry out a scenario. A flush takes up each job once, and a marker for each worker. -/
def play (settings : Settings) (ops : List PoolOp) : Option Transcript :=
  match settings.requireRuntime with
  | .error failure => some { outcome := .error failure }
  | .ok () =>
    let limit := weightOfList ops + settings.workerCount + 1
    let state : State := { pool := .ofSize settings.workerCount settings.catches }
    ((ops.mapM (report limit limit)).run state).map fun r => { outcome := .ok r.1 }

end PoolOp

end LazyHub.Scenario
