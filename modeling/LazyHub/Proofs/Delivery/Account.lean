import LazyHub.Proofs.Delivery.Flushes
import LazyHub.Proofs.Delivery.Turns
import LazyHub.Proofs.Run

/-!
# The account of a worker

A pool is driven by whoever posts, by its workers, and by whoever waits for a flush, in any order of their steps; a job
that posts is one more that posts. What was posted, taken up and done is read off the history of such a run. If panics are
caught, every step keeps the account of each worker (`Account`): what was posted to it is what it is done with, then the
job it is doing, then what is queued, each in the order in which it was posted.
-/

namespace LazyHub

/-- The jobs in a queue, in order. -/
def jobsIn {J : Type} (queue : List (Parcel J)) : List (SignalId × J) :=
  queue.filterMap fun
    | .job signal job => some (signal, job)
    | .marker _ => none

section JobsIn

variable {J : Type} (first second : List (Parcel J))

@[simp] theorem jobsIn_nil : jobsIn ([] : List (Parcel J)) = [] := rfl

@[simp] theorem jobsIn_job (signal : SignalId) (job : J) : jobsIn (.job signal job :: first) = (signal, job) :: jobsIn first := rfl

@[simp] theorem jobsIn_marker (flush : Nat) : jobsIn (.marker flush :: first) = jobsIn first := rfl

@[simp] theorem jobsIn_append : jobsIn (first ++ second) = jobsIn first ++ jobsIn second := List.filterMap_append

end JobsIn

namespace WorkerPool

variable {J : Type}

/-! ### What a step can be -/

/-- What a step of a pool can be. -/
inductive Transition (p : WorkerPool J (SignalId × J)) :
    PoolMove J → Stepped (WorkerPool J (SignalId × J)) Entry → Prop where
  /-- A job is posted. -/
  | post (signal : SignalId) (job : J) : Transition p (.post signal job)
      { state := (p.post signal job).2, effects := if (p.post signal job).1 then [] else [.workerGone signal] }
  /-- A flush starts. -/
  | startFlush : Transition p .startFlush { state := p.startFlush }
  /-- A flush sends its next marker. -/
  | mark {number : Nat} {q : WorkerPool J (SignalId × J)} (marked : p.mark number = some q) :
      Transition p (.mark number) { state := q }
  /-- A flush that is resolved ends. -/
  | resolve {number : Nat} {q : WorkerPool J (SignalId × J)} (resolved : p.resolve number = some q) :
      Transition p (.resolve number) { state := q }
  /-- A worker takes up the next thing in its queue. -/
  | take {w : Nat} {q : WorkerPool J (SignalId × J)} (taken : p.take w Prod.mk = some q) :
      Transition p (.take w) { state := q }
  /-- A worker is done with its job; a panic is caught and noted. -/
  | finish {w : Nat} {x : SignalId × J} (doing : p.current? w = some x) (panicked : Bool)
      (survives : panicked = true → p.catches = true) : Transition p (.finish w panicked)
      { state := p.finish w, effects := if panicked then [.deliveryPanicked x.1] else [] }
  /-- A panic that is not caught ends the worker. -/
  | collapse {w : Nat} {x : SignalId × J} (doing : p.current? w = some x) (uncaught : p.catches = false) :
      Transition p (.finish w true) { state := p.collapse w }

theorem transition_of_step {p : WorkerPool J (SignalId × J)} {l : PoolMove J}
    {r : Stepped (WorkerPool J (SignalId × J)) Entry} (made : p.step l = some r) : p.Transition l r := by
  cases l with
  | post signal job =>
    cases made
    exact .post signal job
  | startFlush =>
    cases made
    exact .startFlush
  | mark number =>
    obtain ⟨q, marked, rfl⟩ := Option.map_eq_some_iff.1 made
    exact .mark marked
  | resolve number =>
    obtain ⟨q, resolved, rfl⟩ := Option.map_eq_some_iff.1 made
    exact .resolve resolved
  | take w =>
    obtain ⟨q, taken, rfl⟩ := Option.map_eq_some_iff.1 made
    exact .take taken
  | finish w panicked =>
    simp only [step] at made
    cases doing : p.current? w with
    | none => simp [doing] at made
    | some x =>
      cases panicked with
      | false =>
        simp only [doing, Bool.not_false, if_true, Option.some.injEq] at made
        subst made
        exact .finish doing false nofun
      | true =>
        cases catches : p.catches with
        | true =>
          simp [doing, catches] at made
          subst made
          exact .finish doing true fun _ => catches
        | false =>
          simp [doing, catches] at made
          subst made
          exact .collapse doing catches

/-- A worker takes up what is first in its queue: a job is what it does then, a marker is no longer awaited. -/
structure Took (p : WorkerPool J (SignalId × J)) (w : Nat) (parcel : Parcel J) (q : WorkerPool J (SignalId × J)) :
    Prop where
  /-- The workers are the same. -/
  alike : Alike p q
  /-- The worker was not doing anything. -/
  idle : p.current? w = none
  /-- It is taken off the worker's queue. -/
  queue : ∀ v, p.queue v = if v = w then parcel :: q.queue v else q.queue v
  /-- The worker does it, if it is a job. -/
  current : ∀ v, (q.current? v).toList = if v = w then jobsIn [parcel] else (p.current? v).toList
  /-- It counts for its flush, if it is a marker. -/
  flushes : q.flushes = settled w p.flushes parcel
  /-- No flush is started. -/
  count : q.flushCount = p.flushCount

theorem took_of_take {p q : WorkerPool J (SignalId × J)} {w : Nat} (taken : p.take w Prod.mk = some q) :
    ∃ parcel, p.Took w parcel q := by
  obtain ⟨alike, takes⟩ := takes_of_take taken
  obtain ⟨count, parcel, rest, head, flushes⟩ := flushes_of_take taken
  have idle := idle_of_take taken
  refine ⟨parcel, alike, idle, ?_, ?_, flushes, count⟩
  · have tail : ∀ v, q.queue v = if v = w then rest else p.queue v := by
      cases takes with
      | job _ _ rest' _ head' queue _ =>
        obtain ⟨-, rfl⟩ := List.cons.inj (head.symm.trans head')
        exact queue
      | marker _ rest' head' queue _ =>
        obtain ⟨-, rfl⟩ := List.cons.inj (head.symm.trans head')
        exact queue
    intro v
    rw [tail]
    split
    · rename_i here
      rw [here, head]
    · rfl
  · cases takes with
    | job signal job rest' _ head' _ current =>
      obtain ⟨rfl, -⟩ := List.cons.inj (head.symm.trans head')
      intro v
      rw [current]
      split <;> rfl
    | marker flush rest' head' _ current =>
      obtain ⟨rfl, -⟩ := List.cons.inj (head.symm.trans head')
      intro v
      rw [current]
      split
      · rename_i here
        rw [here, idle]
        rfl
      · rfl

/-! ### What is read off a history -/

/-- The history of a pool whose jobs are left to its clients. -/
abbrev History (J : Type) := List (Moment (WorkerPool J (SignalId × J)) (PoolMove J) Entry)

/-- The job that a step posts. -/
def posted? (m : Moment (WorkerPool J (SignalId × J)) (PoolMove J) Entry) : Option (SignalId × J) :=
  match m.label with
  | .post signal job => some (signal, job)
  | _ => none

/-- The job that a worker takes up in a step. -/
def begun? (w : Nat) (m : Moment (WorkerPool J (SignalId × J)) (PoolMove J) Entry) : Option (SignalId × J) :=
  match m.label with
  | .take v => if v = w then m.after.state.current? w else none
  | _ => none

/-- The job that a worker is done with in a step. -/
def done? (w : Nat) (m : Moment (WorkerPool J (SignalId × J)) (PoolMove J) Entry) : Option (SignalId × J) :=
  match m.label with
  | .finish v _ => if v = w then m.before.current? w else none
  | _ => none

/-- The jobs that were posted, in order. -/
def posted (past : History J) : List (SignalId × J) := past.filterMap posted?

/-- The jobs that a worker took up, in order. -/
def begun (w : Nat) (past : History J) : List (SignalId × J) := past.filterMap (begun? w)

/-- The jobs that a worker is done with, in order. -/
def done (w : Nat) (past : History J) : List (SignalId × J) := past.filterMap (done? w)

/-- The jobs that were posted to one of so many workers, in order. -/
def postedTo (workers w : Nat) (past : History J) : List (SignalId × J) :=
  (posted past).filter fun x => x.1.index % workers = w

theorem begun?_take {p q : WorkerPool J (SignalId × J)} (v w : Nat) :
    (begun? w ⟨p, .take v, { state := q }⟩).toList = if v = w then (q.current? w).toList else [] := by
  simp only [begun?]
  split <;> rfl

section Snoc

variable (past : History J) (m : Moment (WorkerPool J (SignalId × J)) (PoolMove J) Entry) (w : Nat)

theorem postedTo_snoc (workers : Nat) : postedTo workers w (past ++ [m]) =
    postedTo workers w past ++ (posted? m).toList.filter fun x => x.1.index % workers = w := by
  rw [postedTo, posted, List.filterMap_append, List.filter_append]
  cases h : posted? m <;> simp [h, postedTo, posted]

theorem begun_snoc : begun w (past ++ [m]) = begun w past ++ (begun? w m).toList := by
  rw [begun, List.filterMap_append]
  cases h : begun? w m <;> simp [h, begun]

theorem done_snoc : done w (past ++ [m]) = done w past ++ (done? w m).toList := by
  rw [done, List.filterMap_append]
  cases h : done? w m <;> simp [h, done]

theorem done_append (later : History J) : done w (past ++ later) = done w past ++ done w later := List.filterMap_append

end Snoc

/-! ### The account of a worker -/

/-- **The account of the workers** of a pool that catches panics: what was posted to each is what it is done with, then
the job it is doing, then what is queued. -/
structure Account (workers : Nat) (past : History J) (p : WorkerPool J (SignalId × J)) : Prop where
  /-- There are as many workers as there were at first. -/
  size : p.size = workers
  /-- Panics are caught. -/
  catches : p.catches = true
  /-- Every worker serves its queue. -/
  serving : ∀ w < workers, p.isServing w = true
  /-- Flushes agree with the queues. -/
  orderly : p.IsOrderly
  /-- What was posted was taken up or is queued. -/
  queued : ∀ w, postedTo workers w past = begun w past ++ jobsIn (p.queue w)
  /-- What was taken up is done or being done. -/
  current : ∀ w, begun w past = done w past ++ (p.current? w).toList

theorem account_ofSize (workers : Nat) : Account workers [] (ofSize workers true : WorkerPool J (SignalId × J)) where
  size := List.length_replicate
  catches := rfl
  serving w there := by simp [isServing, ofSize, there]
  orderly := isOrderly_ofSize workers true
  queued w := by
    rw [queue_ofSize]
    rfl
  current w := by
    rw [current?_ofSize]
    rfl

section Step

variable {workers : Nat} {past : History J} {p : WorkerPool J (SignalId × J)} {l : PoolMove J}
  {r : Stepped (WorkerPool J (SignalId × J)) Entry}

/-- A step in which no job is posted, taken up or done with. -/
theorem Account.of_still (account : Account workers past p) (alike : Alike p r.state) (orderly : r.state.IsOrderly)
    (queue : ∀ w, jobsIn (r.state.queue w) = jobsIn (p.queue w)) (current : ∀ w, r.state.current? w = p.current? w)
    (still : posted? ⟨p, l, r⟩ = none ∧ ∀ w, begun? w ⟨p, l, r⟩ = none ∧ done? w ⟨p, l, r⟩ = none) :
    Account workers (past ++ [⟨p, l, r⟩]) r.state := by
  obtain ⟨unposted, still⟩ := still
  refine ⟨alike.size.trans account.size, alike.catches.trans account.catches, ?_, orderly, ?_, ?_⟩
  · intro w there
    rw [alike.serving]
    exact account.serving w there
  · intro w
    rw [postedTo_snoc, begun_snoc, unposted, (still w).1, queue]
    simpa using account.queued w
  · intro w
    rw [begun_snoc, done_snoc, (still w).1, (still w).2, current]
    simpa using account.current w

/-- **Every step keeps the account.** -/
theorem Account.step (some : 0 < workers) (account : Account workers past p) (t : p.Transition l r) :
    Account workers (past ++ [⟨p, l, r⟩]) r.state := by
  cases t with
  | post signal job =>
    have shard : p.shard signal = signal.index % workers := by rw [WorkerPool.shard, account.size]
    have serving := account.serving _ (shard ▸ Nat.mod_lt _ some)
    have alike := alike_send p (p.shard signal) (.job signal job)
    refine ⟨alike.size.trans account.size, alike.catches.trans account.catches, ?_, account.orderly.send_job .., ?_, ?_⟩
    · intro w there
      exact (alike.serving w).trans (account.serving w there)
    · intro w
      change _ = _ ++ jobsIn ((p.send (p.shard signal) (.job signal job)).2.queue w)
      rw [postedTo_snoc, begun_snoc, account.queued, queue_send _ serving, shard]
      by_cases here : signal.index % workers = w
      · simp [posted?, begun?, here]
      · simp [posted?, begun?, here, Ne.symm here]
    · intro w
      change _ = _ ++ ((p.send (p.shard signal) (.job signal job)).2.current? w).toList
      rw [begun_snoc, done_snoc, current?_send, account.current]
      simp [begun?, done?]
  | startFlush =>
    exact account.of_still (marks_startFlush p).alike account.orderly.startFlush (fun _ => rfl) (fun _ => rfl)
      ⟨rfl, fun _ => ⟨rfl, rfl⟩⟩
  | mark marked =>
    obtain ⟨f, -, next⟩ := marksNext_of_mark marked
    refine account.of_still next.marks.alike (account.orderly.marksNext next) (fun w => ?_) next.marks.current
      ⟨rfl, fun _ => ⟨rfl, rfl⟩⟩
    rw [next.queue]
    split <;> simp
  | resolve resolved =>
    have orderly := account.orderly.resolve resolved
    obtain ⟨-, rfl⟩ := resolve_eq_some resolved
    exact account.of_still ⟨rfl, rfl, fun _ => rfl⟩ orderly (fun _ => rfl) (fun _ => rfl) ⟨rfl, fun _ => ⟨rfl, rfl⟩⟩
  | @take v q taken =>
    obtain ⟨parcel, took⟩ := took_of_take taken
    refine ⟨took.alike.size.trans account.size, took.alike.catches.trans account.catches, ?_, account.orderly.take taken,
      ?_, ?_⟩
    · intro w there
      exact (took.alike.serving w).trans (account.serving w there)
    · intro w
      rw [postedTo_snoc, begun_snoc, account.queued, took.queue]
      by_cases here : w = v
      · subst here
        rw [begun?_take, took.current, if_pos rfl, if_pos rfl, if_pos rfl, List.append_assoc, List.append_assoc]
        simp [posted?, ← jobsIn_append]
      · rw [begun?_take, if_neg here, if_neg (Ne.symm here)]
        simp [posted?]
    · intro w
      rw [begun_snoc, done_snoc, begun?_take, account.current, took.current]
      by_cases here : w = v
      · subst here
        simp [done?, took.idle]
      · simp [done?, here, Ne.symm here]
  | @finish v x doing panicked survives =>
    have alike := alike_finish p v
    refine ⟨alike.size.trans account.size, alike.catches.trans account.catches, ?_, account.orderly.finish doing, ?_, ?_⟩
    · intro w there
      exact (alike.serving w).trans (account.serving w there)
    · intro w
      rw [postedTo_snoc, begun_snoc, account.queued, queue_finish doing]
      simp [posted?, begun?]
    · intro w
      rw [begun_snoc, done_snoc, account.current, current?_finish doing]
      by_cases here : w = v
      · subst here
        simp [begun?, done?, doing]
      · simp [begun?, done?, here, Ne.symm here]
  | collapse doing uncaught => cases account.catches.symm.trans uncaught

/-- What is done stays done. -/
theorem done_stays (w : Nat) (past later : History J) : done w past <+: done w (past ++ later) :=
  ⟨done w later, (done_append past w later).symm⟩

/-- **Every run keeps the account.** -/
theorem Account.run (some : 0 < workers) (account : Account workers past p) {labels : List (PoolMove J)}
    {q : WorkerPool J (SignalId × J)} {es : List Entry} (ran : LazyHub.run WorkerPool.step labels p = .some (q, es)) :
    Account workers (past ++ trail WorkerPool.step labels p) q :=
  run_remembers (P := Account workers) (fun account made => account.step some (transition_of_step made)) ran past account

end Step

end WorkerPool

end LazyHub
