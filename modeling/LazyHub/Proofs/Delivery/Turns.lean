import LazyHub.Proofs.Delivery.WorkerPool
import Mathlib.Algebra.BigOperators.Intervals

/-!
# Turns

A worker that is not doing anything takes up what is first in its queue, and is done with it at the end of its turn
(`Turned`). Between two turns a pool is ready (`IsReady`), and with every turn there is less that waits (`load_of_tail`).
A flush sends each worker a marker (`Marked`), and is over when all of them are taken up: as long as one is awaited,
it is in its worker's queue (`IsMarked`), so that once the queues are empty the flush can be resolved
(`IsMarked.resolve`).
-/

namespace LazyHub

namespace WorkerPool

variable {J D : Type}

/-- Every worker serves its queue, and none is doing anything. -/
structure IsReady (p : WorkerPool J D) : Prop where
  /-- Every worker serves its queue. -/
  serving : ∀ w < p.size, p.isServing w
  /-- No job is being done. -/
  idle : ∀ w, p.current? w = none

theorem queue_ofSize (workers : Nat) (catches : Bool) (w : Nat) : (ofSize workers catches : WorkerPool J D).queue w = [] := by
  simp only [queue, ofSize]
  cases h : (List.replicate workers ({} : Worker J D))[w]? with
  | none => rfl
  | some worker => rw [List.eq_of_mem_replicate (List.mem_of_getElem? h)]; rfl

/-- New workers have nothing to do. -/
theorem isReady_ofSize (workers : Nat) (catches : Bool) : (ofSize workers catches : WorkerPool J D).IsReady where
  serving w there := by
    have lt : w < workers := by simpa [size, ofSize] using there
    simp [isServing, ofSize, lt]
  idle := current?_ofSize workers catches

/-- How many things wait in the queues. -/
def load (p : WorkerPool J D) : Nat := ∑ w ∈ Finset.range p.size, (p.queue w).length

/-- A flush is under way that has sent all its markers, and those that were not taken up yet are queued. -/
def IsMarked (p : WorkerPool J D) (number : Nat) : Prop :=
  ∃ awaited, p.flushes = [⟨number, p.size, awaited⟩] ∧ ∀ w ∈ awaited, .marker number ∈ p.queue w

/-- The pool after a worker is done with what was first in its queue. -/
def advanced (p : WorkerPool J D) (w : Nat) : WorkerPool J D :=
  p.modifyWorker w fun x => { x with queue := x.queue.tail, current := none }

variable {p q : WorkerPool J D} {w : Nat}

theorem alike_advanced (p : WorkerPool J D) (w : Nat) : Alike p (p.advanced w) := alike_modifyWorker fun _ => rfl

theorem queue_advanced (there : w < p.size) (v : Nat) :
    (p.advanced w).queue v = if v = w then (p.queue v).tail else p.queue v :=
  queue_modifyWorker (c := List.tail) (fun _ => rfl) there v

theorem current?_advanced (there : w < p.size) (v : Nat) :
    (p.advanced w).current? v = if v = w then none else p.current? v :=
  current?_modifyWorker (c := fun _ => none) (fun _ => rfl) there v

theorem IsReady.next?_eq (ready : p.IsReady) (there : w < p.size) : p.next? w = (p.queue w).head? :=
  next?_eq_head (ready.serving w there) (ready.idle w)

/-- Nothing waits if no worker has anything to take up. -/
theorem IsReady.queue_eq_nil (ready : p.IsReady) (nobody : p.firstReady? = none) (w : Nat) : p.queue w = [] := by
  by_cases there : w < p.size
  · have none := List.find?_eq_none.1 nobody w (List.mem_range.2 there)
    rw [ready.next?_eq there] at none
    simpa using none
  · have beyond : p.workers[w]? = none := List.getElem?_eq_none (Nat.le_of_not_lt there)
    simp [queue, beyond]

/-- The load is one less where one queue is one shorter. -/
theorem load_of_tail {parcel : Parcel J} {rest : List (Parcel J)} (size : q.size = p.size) (there : w < p.size)
    (head : p.queue w = parcel :: rest) (queue : ∀ v, q.queue v = if v = w then (p.queue v).tail else p.queue v) :
    q.load + 1 = p.load := by
  have mem : w ∈ Finset.range p.size := Finset.mem_range.2 there
  have others : ∑ v ∈ (Finset.range p.size).erase w, (q.queue v).length =
      ∑ v ∈ (Finset.range p.size).erase w, (p.queue v).length := by
    refine Finset.sum_congr rfl fun v hv => ?_
    rw [queue, if_neg (Finset.ne_of_mem_erase hv)]
  rw [load, load, size, ← Finset.add_sum_erase _ _ mem, ← Finset.add_sum_erase _ (fun v => (p.queue v).length) mem, others,
    queue, if_pos rfl, head, List.tail_cons, List.length_cons]
  omega

theorem setCurrent_self {d : D} (doing : p.current? w = some d) : p.setCurrent w d = p := by
  obtain ⟨x, there, current⟩ := Option.bind_eq_some_iff.1 doing
  have same : p.workers.modify w (fun x => { x with current := some d }) = p.workers := by
    rw [List.modify_eq_set_getElem?, there, ← current]
    obtain ⟨lt, rfl⟩ := List.getElem?_eq_some_iff.1 there
    exact List.set_getElem_self lt
  rw [setCurrent, modifyWorker, same]

theorem setCurrent_setCurrent (d e : D) : (p.setCurrent w d).setCurrent w e = p.setCurrent w e := by
  simp only [setCurrent, modifyWorker, List.modify_modify_eq]
  rfl

/-- What changed in the course of one turn of a worker. -/
structure Turned (p : WorkerPool J D) (w : Nat) (parcel : Parcel J) (q : WorkerPool J D) : Prop where
  /-- The workers are the same. -/
  alike : Alike p q
  /-- The worker is done with what was first in its queue. -/
  queue : ∀ v, q.queue v = if v = w then (p.queue v).tail else p.queue v
  /-- No job is being done. -/
  idle : ∀ v, q.current? v = none
  /-- A marker counts for its flush. -/
  flushes : q.flushes = match parcel with
    | .job .. => p.flushes
    | .marker number => p.flushes.map fun f => if f.number = number then { f with awaited := f.awaited.filter (· ≠ w) } else f

/-! ### One turn -/

section Turned

variable {parcel : Parcel J} {rest : List (Parcel J)}

theorem Turned.ready (turned : p.Turned w parcel q) (ready : p.IsReady) : q.IsReady where
  serving v there := by
    rw [turned.alike.serving]
    exact ready.serving v (turned.alike.size ▸ there)
  idle := turned.idle

/-- A job that is taken up is the first that waited for its signal. -/
theorem Turned.queued_eq (turned : p.Turned w parcel q) (head : p.queue w = parcel :: rest)
    (home : ∀ signal job, parcel = .job signal job → w = p.shard signal) (signal : SignalId) :
    jobsFor signal [parcel] ++ q.queued signal = p.queued signal := by
  rw [WorkerPool.queued, turned.alike.shard, turned.queue, WorkerPool.queued]
  split
  · rename_i here
    rw [here, head, List.tail_cons, ← jobsFor_append]
    rfl
  · rename_i elsewhere
    have none : jobsFor signal [parcel] = [] := by
      cases parcel with
      | marker => rfl
      | job s job =>
        have ne : s ≠ signal := fun eq => elsewhere (eq ▸ (home s job rfl).symm)
        simp [jobsFor, ne]
    rw [none, List.nil_append]

/-- A marker that is taken up is no longer awaited; one that is not stays in its queue. -/
theorem Turned.marked (turned : p.Turned w parcel q) (head : p.queue w = parcel :: rest) {number : Nat}
    (marked : p.IsMarked number) : q.IsMarked number := by
  obtain ⟨awaited, flushes, queued⟩ := marked
  have stays : ∀ v ∈ awaited, parcel ≠ .marker number ∨ v ≠ w → .marker number ∈ q.queue v := by
    intro v mem other
    have before := queued v mem
    rw [turned.queue]
    split
    · rename_i eq
      subst eq
      rw [head] at before ⊢
      rcases List.mem_cons.1 before with eq | later
      · exact absurd eq.symm (other.resolve_right fun ne => ne rfl)
      · exact later
    · exact before
  have said := turned.flushes
  cases parcel with
  | job signal job =>
    exact ⟨awaited, by rw [said, flushes, turned.alike.size], fun v mem => stays v mem (.inl nofun)⟩
  | marker m =>
    by_cases eq : m = number
    · subst eq
      refine ⟨awaited.filter (· ≠ w), by simp [said, flushes, turned.alike.size], fun v mem => ?_⟩
      obtain ⟨mem, other⟩ := List.mem_filter.1 mem
      exact stays v mem (.inr (by simpa using other))
    · refine ⟨awaited, by simp [said, flushes, turned.alike.size, Ne.symm eq], fun v mem => stays v mem (.inl ?_)⟩
      rintro ⟨⟩
      exact eq rfl

end Turned

/-! ### Flushes -/

/-- The pool after a flush has started and has sent markers to the first workers. -/
structure Marked (p : WorkerPool J D) (number : Nat) (k : Nat) (q : WorkerPool J D) : Prop where
  /-- Nothing else was queued, begun or ended. -/
  marks : Marks p q
  /-- Every one of the markers is awaited. -/
  flushes : q.flushes = [⟨number, k, List.range k⟩]
  /-- The markers are behind all that waits. -/
  queue : ∀ v, q.queue v = p.queue v ++ if v < k then [.marker number] else []

variable {number k : Nat}

theorem marked_startFlush (unflushed : p.flushes = []) : p.Marked p.flushCount 0 p.startFlush where
  marks := marks_startFlush p
  flushes := by rw [startFlush, unflushed]; rfl
  queue v := (List.append_nil _).symm

theorem Marked.mark (marked : p.Marked number k q) (ready : p.IsReady) (there : k < p.size) :
    ∃ r, q.mark number = some r ∧ p.Marked number (k + 1) r := by
  have serving : q.isServing k := marked.marks.alike.serving k ▸ ready.serving k there
  have known : q.flush? number = some ⟨number, k, List.range k⟩ := by simp [flush?, marked.flushes]
  have made : q.mark number = some ((q.send k (.marker number)).2.modifyFlush number
      fun f => { f with next := f.next + 1, awaited := f.awaited ++ [f.next] }) := by
    simp only [WorkerPool.mark, known, marked.marks.alike.size, there, if_true, send_eq _ serving]
  refine ⟨_, made, marked.marks.trans (marks_of_mark made), ?_, fun v => ?_⟩
  · rw [send_eq _ serving]
    simp [modifyFlush, modifyWorker, marked.flushes, List.range_succ]
  · refine (queue_send (.marker number) serving v).trans ?_
    rw [marked.queue]
    by_cases eq : v = k
    · subst eq
      simp
    · have lt : v < k + 1 ↔ v < k := by omega
      simp [eq, lt]

theorem Marked.ready (marked : p.Marked number k q) (ready : p.IsReady) : q.IsReady where
  serving v there := by
    rw [marked.marks.alike.serving]
    exact ready.serving v (marked.marks.alike.size ▸ there)
  idle v := (marked.marks.current v).trans (ready.idle v)

theorem Marked.isMarked (marked : p.Marked number p.size q) : q.IsMarked number :=
  ⟨List.range p.size, by rw [marked.flushes, marked.marks.alike.size], fun v mem => by
    rw [marked.queue, if_pos (List.mem_range.1 mem)]
    exact List.mem_append_right _ (List.mem_singleton_self _)⟩

theorem Marked.load (marked : p.Marked number p.size q) : q.load = p.load + p.size := by
  rw [WorkerPool.load, marked.marks.alike.size, WorkerPool.load]
  have one : ∀ v ∈ Finset.range p.size, (q.queue v).length = (p.queue v).length + 1 := by
    intro v mem
    rw [marked.queue, if_pos (Finset.mem_range.1 mem), List.length_append, List.length_singleton]
  rw [Finset.sum_congr rfl one, Finset.sum_add_distrib, ← Finset.card_eq_sum_ones, Finset.card_range]

/-- A flush whose markers are all taken up is resolved. -/
theorem IsMarked.resolve (marked : p.IsMarked number) (drained : ∀ w, p.queue w = []) :
    p.resolve number = some { p with flushes := [] } := by
  obtain ⟨awaited, flushes, queued⟩ := marked
  obtain rfl : awaited = [] := by
    refine List.eq_nil_iff_forall_not_mem.2 fun w mem => ?_
    have waits := queued w mem
    rw [drained] at waits
    cases waits
  have resolved : p.isResolved number = true := by simp [isResolved, flush?, flushes]
  simp [WorkerPool.resolve, resolved, flushes]

end WorkerPool

end LazyHub
