import LazyHub.Proofs.Delivery.Flushes

/-!
# A pool whose workers go on

Two pools side by side: some workers have ended in the one and go on in the other, and otherwise the pools are the same
(`WorkerPool.Outlives`). What the first pool does the second can do as well, up to what concerns the workers that have
ended, and the pools stay so; in particular a flush does not wait for these workers in the one, and in the other it
can be resolved as soon as they have nothing to do. What the second pool does with these workers does not show in the
first.
-/

namespace LazyHub

/-- A flush as it is where some workers have ended. -/
def Flush.without (ended : List Nat) (f : Flush) : Flush := { f with awaited := f.awaited.filter (· ∉ ended) }

@[simp] theorem Flush.number_without (ended : List Nat) (f : Flush) : (f.without ended).number = f.number := rfl

@[simp] theorem Flush.next_without (ended : List Nat) (f : Flush) : (f.without ended).next = f.next := rfl

theorem Flush.without_filter (ended : List Nat) (f : Flush) (c : Nat → Bool) :
    Flush.without ended { f with awaited := f.awaited.filter c } =
      { f.without ended with awaited := (f.without ended).awaited.filter c } := by
  simp [without, List.filter_filter, Bool.and_comm]

/-- It makes no difference to a flush if a worker has ended twice. -/
theorem Flush.without_filter_ne {ended : List Nat} {w : Nat} (mem : w ∈ ended) (f : Flush) :
    Flush.without ended { f with awaited := f.awaited.filter (· ≠ w) } = f.without ended := by
  have apart : (f.without ended).awaited.filter (· ≠ w) = (f.without ended).awaited := by
    refine List.filter_eq_self.2 fun v awaits => decide_eq_true ?_
    rintro rfl
    exact of_decide_eq_true (List.mem_filter.1 awaits).2 mem
  rw [Flush.without_filter, apart]

namespace WorkerPool

variable {J D : Type}

/-- **A pool in which some workers go on that have ended in another.** -/
structure Outlives (ended : List Nat) (p q : WorkerPool J D) : Prop where
  /-- There are as many workers. -/
  size : q.size = p.size
  /-- The others are the same. -/
  workers : ∀ w ∉ ended, q.workers[w]? = p.workers[w]?
  /-- These have ended in the one pool. -/
  off : ∀ w ∈ ended, p.isServing w = false
  /-- They go on in the other. -/
  on : ∀ w ∈ ended, q.isServing w = true
  /-- As many flushes were started. -/
  count : q.flushCount = p.flushCount
  /-- The same ones are under way, but do not wait for a worker that has ended. -/
  flushes : p.flushes = q.flushes.map (·.without ended)

variable {ended : List Nat} {p q : WorkerPool J D} {w : Nat}

theorem Outlives.refl (p : WorkerPool J D) : Outlives [] p p where
  size := rfl
  workers _ _ := rfl
  off := nofun
  on := nofun
  count := rfl
  flushes := by simp [Flush.without]

/-! ### What the others show -/

section Others

variable (o : Outlives ended p q)
include o

theorem Outlives.isServing_eq (other : w ∉ ended) : q.isServing w = p.isServing w := by
  rw [isServing, o.workers w other, isServing]

theorem Outlives.current?_eq (other : w ∉ ended) : q.current? w = p.current? w := by
  rw [current?, o.workers w other, current?]

theorem Outlives.next?_eq (other : w ∉ ended) : q.next? w = p.next? w := by
  rw [next?, o.workers w other, next?]

theorem Outlives.isIdle_eq (other : w ∉ ended) : q.isIdle w = p.isIdle w := by
  rw [isIdle, o.workers w other, isIdle]

theorem Outlives.shard_eq (signal : SignalId) : q.shard signal = p.shard signal := by
  rw [shard, o.size, shard]

theorem Outlives.not_mem_of_serving (serving : p.isServing w = true) : w ∉ ended := fun mem => by
  cases serving.symm.trans (o.off w mem)

theorem Outlives.flush?_eq (number : Nat) : p.flush? number = (q.flush? number).map (·.without ended) :=
  flush?_of_map (g := (·.without ended)) (fun _ => rfl) o.flushes number

/-- A flush of both pools changes alike. -/
theorem Outlives.modifyFlush {number : Nat} {g g' : Flush → Flush}
    (alike : ∀ f ∈ q.flushes, f.number = number → g (f.without ended) = (g' f).without ended) :
    Outlives ended (p.modifyFlush number g) (q.modifyFlush number g') := by
  refine { o with flushes := ?_ }
  simp only [WorkerPool.modifyFlush, o.flushes, List.map_map]
  refine List.map_congr_left fun f mem => ?_
  by_cases named : f.number = number
  · simp [named, alike f mem named]
  · simp [named]

end Others

/-! ### What both pools do -/

theorem workers_modifyWorker_of_ne {g : Worker J D → Worker J D} {v : Nat} (other : v ≠ w) :
    (p.modifyWorker w g).workers[v]? = p.workers[v]? := by
  simp [modifyWorker, other.symm]

theorem isServing_modifyWorker_of_ne {g : Worker J D → Worker J D} {v : Nat} (other : v ≠ w) :
    (p.modifyWorker w g).isServing v = p.isServing v := by
  rw [isServing, workers_modifyWorker_of_ne other, isServing]

/-- A worker that has not ended in either pool changes in both. -/
theorem Outlives.modifyWorker (o : Outlives ended p q) (other : w ∉ ended) (g : Worker J D → Worker J D) :
    Outlives ended (p.modifyWorker w g) (q.modifyWorker w g) := by
  have apart : ∀ v ∈ ended, v ≠ w := fun v mem eq => other (eq ▸ mem)
  refine ⟨?_, fun v outside => ?_, fun v mem => ?_, fun v mem => ?_, o.count, o.flushes⟩
  · rw [size_modifyWorker, size_modifyWorker]
    exact o.size
  · simp only [WorkerPool.modifyWorker, List.getElem?_modify, o.workers v outside]
  · rw [isServing_modifyWorker_of_ne (apart v mem)]
    exact o.off v mem
  · rw [isServing_modifyWorker_of_ne (apart v mem)]
    exact o.on v mem

/-- A worker that goes on makes no difference where it has ended. -/
theorem Outlives.modifyEnded (o : Outlives ended p q) (mem : w ∈ ended) {g : Worker J D → Worker J D}
    (alive : ∀ x, (g x).alive = x.alive) : Outlives ended p (q.modifyWorker w g) := by
  refine ⟨?_, fun v outside => ?_, o.off, fun v mem' => ?_, o.count, o.flushes⟩
  · rw [size_modifyWorker]
    exact o.size
  · have other : v ≠ w := fun eq => outside (eq ▸ mem)
    rw [workers_modifyWorker_of_ne other]
    exact o.workers v outside
  · rw [isServing_modifyWorker alive]
    exact o.on v mem'

/-- **What is sent to a worker that has ended** is lost, or it is queued where the worker goes on. -/
theorem Outlives.send (o : Outlives ended p q) (w : Nat) (parcel : Parcel J) :
    Outlives ended (p.send w parcel).2 (q.send w parcel).2 ∧ (w ∉ ended → (q.send w parcel).1 = (p.send w parcel).1) := by
  by_cases mem : w ∈ ended
  · rw [send_of_ended parcel (o.off w mem), send_eq parcel (o.on w mem)]
    exact ⟨o.modifyEnded mem fun _ => rfl, fun other => absurd mem other⟩
  · cases serving : p.isServing w with
    | false =>
      rw [send_of_ended parcel serving, send_of_ended parcel ((o.isServing_eq mem).trans serving)]
      exact ⟨o, fun _ => rfl⟩
    | true =>
      rw [send_eq parcel serving, send_eq parcel ((o.isServing_eq mem).trans serving)]
      exact ⟨o.modifyWorker mem _, fun _ => rfl⟩

theorem Outlives.post (o : Outlives ended p q) (signal : SignalId) (job : J) :
    Outlives ended (p.post signal job).2 (q.post signal job).2 := by
  rw [WorkerPool.post, WorkerPool.post, o.shard_eq]
  exact (o.send ..).1

/-- A worker that takes something up serves its queue. -/
theorem isServing_of_take {start : SignalId → J → D} {p' : WorkerPool J D} (taken : p.take w start = some p') :
    p.isServing w = true := by
  cases next : p.next? w with
  | none => simp [WorkerPool.take, next] at taken
  | some parcel =>
    unfold next? at next
    split at next
    · rename_i x there
      split at next
      · rename_i ready
        rw [Bool.and_eq_true] at ready
        simp [isServing, there, ready.1]
      · cases next
    · cases next

theorem isServing_of_isIdle (idle : p.isIdle w = true) : p.isServing w = true := by
  unfold isIdle at idle
  split at idle
  · rename_i x there
    rw [Bool.and_eq_true, Bool.and_eq_true] at idle
    simp [isServing, there, idle.1.1]
  · cases idle

/-- Both pools take the same thing up. -/
theorem Outlives.take {start : SignalId → J → D} {p' : WorkerPool J D} (o : Outlives ended p q)
    (taken : p.take w start = some p') : ∃ q', q.take w start = some q' ∧ Outlives ended p' q' := by
  have other := o.not_mem_of_serving (isServing_of_take taken)
  unfold WorkerPool.take at taken ⊢
  rw [o.next?_eq other]
  split at taken
  · cases taken
    exact ⟨_, rfl, o.modifyWorker other _⟩
  · cases taken
    exact ⟨_, rfl, (o.modifyWorker other _).modifyFlush fun f _ _ => (Flush.without_filter ended f _).symm⟩
  · cases taken

/-- What a worker takes up that has ended in the other pool. -/
theorem Outlives.takeEnded {start : SignalId → J → D} {q' : WorkerPool J D} (o : Outlives ended p q) (mem : w ∈ ended)
    (taken : q.take w start = some q') : Outlives ended p q' := by
  unfold WorkerPool.take at taken
  split at taken
  · cases taken
    exact o.modifyEnded mem fun _ => rfl
  · cases taken
    have o : Outlives ended p (q.modifyWorker w fun x => { x with queue := x.queue.tail }) := o.modifyEnded mem fun _ => rfl
    refine { o with flushes := ?_ }
    rw [o.flushes, WorkerPool.modifyFlush, List.map_map]
    refine List.map_congr_left fun f _ => ?_
    rw [Function.comp_apply]
    split
    · exact (Flush.without_filter_ne mem f).symm
    · rfl
  · cases taken

/-- A worker ends in the one pool, and goes on in the other. -/
theorem Outlives.collapse (o : Outlives ended p q) (serving : p.isServing w = true) {g : Worker J D → Worker J D}
    (alive : ∀ x, (g x).alive = x.alive) : Outlives (ended ++ [w]) (p.collapse w) (q.modifyWorker w g) := by
  have other := o.not_mem_of_serving serving
  refine ⟨?_, fun v outside => ?_, fun v mem => ?_, fun v mem => ?_, o.count, ?_⟩
  · rw [size_modifyWorker, size_collapse]
    exact o.size
  · rw [List.mem_append, List.mem_singleton, not_or] at outside
    rw [workers_modifyWorker_of_ne outside.2, o.workers v outside.1]
    exact (workers_modifyWorker_of_ne outside.2).symm
  · rw [isServing_collapse]
    split
    · rfl
    · rename_i ne
      rw [List.mem_append, List.mem_singleton] at mem
      exact o.off v (mem.resolve_right ne)
  · rw [isServing_modifyWorker alive]
    rcases List.mem_append.1 mem with mem | mem
    · exact o.on v mem
    · rw [List.mem_singleton.1 mem]
      exact (o.isServing_eq other).trans serving
  · simp [WorkerPool.collapse, WorkerPool.modifyWorker, o.flushes, Flush.without, List.filter_filter, Bool.and_comm]

/-- A worker ends in both pools. -/
theorem Outlives.collapseBoth (o : Outlives ended p q) (other : w ∉ ended) :
    Outlives ended (p.collapse w) (q.collapse w) := by
  refine { o.modifyWorker other fun _ => { queue := [], current := none, alive := false } with flushes := ?_ }
  simp only [WorkerPool.collapse, WorkerPool.modifyWorker, o.flushes, List.map_map]
  exact List.map_congr_left fun f _ => (Flush.without_filter ended f _).symm

theorem Outlives.startFlush (o : Outlives ended p q) : Outlives ended p.startFlush q.startFlush :=
  { o with
    count := congrArg (· + 1) o.count
    flushes := by simp [WorkerPool.startFlush, o.flushes, o.count, Flush.without] }

/-- Both pools send a flush's next marker. -/
theorem Outlives.mark {number : Nat} {p' : WorkerPool J D} (o : Outlives ended p q) (orderly : q.IsOrderly)
    (marked : p.mark number = some p') : ∃ q', q.mark number = some q' ∧ Outlives ended p' q' := by
  obtain ⟨f, known, next⟩ := marksNext_of_mark marked
  have there := next.there
  rw [mark_eq known there] at marked
  cases marked
  obtain ⟨f, known', rfl⟩ := Option.map_eq_some_iff.1 ((o.flush?_eq number).symm.trans known)
  rw [Flush.next_without] at there ⊢
  refine ⟨_, mark_eq known' (o.size ▸ there), ?_⟩
  obtain ⟨sent, alike⟩ := o.send f.next (.marker number)
  refine sent.modifyFlush fun g mem named => ?_
  obtain ⟨there', rfl⟩ := flush?_eq_some known'
  rw [(flushes_send ..).1] at mem
  obtain rfl := orderly.eq_of_number mem there' named
  -- a marker for a worker that has ended is not sent, or it is not awaited
  by_cases ended' : g.next ∈ ended
  · have unsent : (p.send g.next (.marker g.number)).1 = false := by rw [send_of_ended _ (o.off _ ended')]
    simp [Flush.without, unsent, apply_ite (List.filter _), ended']
  · rw [alike ended']
    cases (p.send g.next (.marker g.number)).1 <;> simp [Flush.without, ended']

/-- Both pools resolve a flush. -/
theorem Outlives.resolve {number : Nat} {p' q' : WorkerPool J D} (o : Outlives ended p q)
    (resolved : p.resolve number = some p') (resolved' : q.resolve number = some q') : Outlives ended p' q' := by
  obtain ⟨-, rfl⟩ := resolve_eq_some resolved
  obtain ⟨-, rfl⟩ := resolve_eq_some resolved'
  refine { o with flushes := ?_ }
  rw [o.flushes, List.filter_map]
  rfl

/-- A flush can be resolved once the workers that have ended in the other pool have taken all their markers up. -/
theorem Outlives.exists_resolve {number : Nat} {p' : WorkerPool J D} (o : Outlives ended p q) (orderly : q.IsOrderly)
    (drained : ∀ w ∈ ended, q.queue w = []) (resolved : p.resolve number = some p') : ∃ q', q.resolve number = some q' := by
  obtain ⟨⟨f, known, everywhere, nobody⟩, -⟩ := resolve_eq_some resolved
  obtain ⟨f, known', rfl⟩ := Option.map_eq_some_iff.1 ((o.flush?_eq number).symm.trans known)
  obtain ⟨mem, rfl⟩ := flush?_eq_some known'
  have settled : f.awaited = [] := by
    refine List.eq_nil_iff_forall_not_mem.2 fun w awaits => ?_
    have other : w ∉ ended := fun gone => by
      have waits := (orderly.awaited f mem w awaits).2
      rw [drained w gone] at waits
      cases waits
    have awaits' : w ∈ (f.without ended).awaited := List.mem_filter.2 ⟨awaits, decide_eq_true other⟩
    rw [nobody] at awaits'
    cases awaits'
  have everywhere : f.next = q.size := everywhere.trans o.size.symm
  exact ⟨_, by simp [WorkerPool.resolve, isResolved, known', everywhere, settled]; rfl⟩

end WorkerPool

end LazyHub
