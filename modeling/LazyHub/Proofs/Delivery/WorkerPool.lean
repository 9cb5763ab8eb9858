import LazyHub.Delivery.WorkerPool

/-!
# Queues and jobs, worker by worker

What the operations of a worker pool do is said here through four views of it: how many workers there
are, whether a worker serves its queue, what its queue holds, and the job that it is doing
(`current?`). `queued` is what waits for one signal: since a signal's jobs all go to one worker, and
each worker takes up its queue in order, this is a queue of its own.
-/

namespace LazyHub

variable {J D : Type}

/-- The jobs for a signal in a worker's queue, in order. -/
def jobsFor (signal : SignalId) (queue : List (Parcel J)) : List J :=
  queue.filterMap fun
    | .job s job => if s = signal then some job else none
    | .marker _ => none

theorem jobsFor_append (signal : SignalId) (first second : List (Parcel J)) :
    jobsFor signal (first ++ second) = jobsFor signal first ++ jobsFor signal second :=
  List.filterMap_append

namespace WorkerPool

/-- Whether a worker serves its queue. -/
def isServing (p : WorkerPool J D) (w : Nat) : Bool := (p.workers[w]?.map (·.alive)).getD false

/-- What waits in a worker's queue. -/
def queue (p : WorkerPool J D) (w : Nat) : List (Parcel J) := (p.workers[w]?.map (·.queue)).getD []

/-- The jobs that wait for a signal, first one first. -/
def queued (p : WorkerPool J D) (signal : SignalId) : List J := jobsFor signal (p.queue (p.shard signal))

variable {p q : WorkerPool J D} {w : Nat}

theorem mem_queued {signal : SignalId} {job : J} :
    job ∈ p.queued signal ↔ .job signal job ∈ p.queue (p.shard signal) := by
  simp only [queued, jobsFor, List.mem_filterMap]
  constructor
  · rintro ⟨parcel, mem, found⟩
    cases parcel with
    | job s j =>
      simp only [Option.ite_none_right_eq_some, Option.some.injEq] at found
      obtain ⟨rfl, rfl⟩ := found
      exact mem
    | marker => cases found
  · exact fun mem => ⟨_, mem, by simp⟩

/-! ### Changing one worker -/

section ModifyWorker

variable {g : Worker J D → Worker J D}

@[simp] theorem size_modifyWorker : (p.modifyWorker w g).size = p.size := List.length_modify ..

theorem isServing_modifyWorker (same : ∀ x, (g x).alive = x.alive) (v : Nat) :
    (p.modifyWorker w g).isServing v = p.isServing v := by
  simp only [isServing, modifyWorker, List.getElem?_modify]
  cases p.workers[v]? with
  | none => rfl
  | some x => by_cases eq : w = v <;> simp [eq, same]

theorem queue_modifyWorker {c : List (Parcel J) → List (Parcel J)}
    (changes : ∀ x, (g x).queue = c x.queue) (there : w < p.size) (v : Nat) :
    (p.modifyWorker w g).queue v = if v = w then c (p.queue v) else p.queue v := by
  simp only [queue, modifyWorker, List.getElem?_modify]
  by_cases eq : w = v
  · subst eq
    obtain ⟨x, hx⟩ : ∃ x, p.workers[w]? = some x := ⟨_, List.getElem?_eq_getElem there⟩
    simp [hx, changes]
  · simp [eq, Ne.symm eq]

theorem current?_modifyWorker {c : Option D → Option D}
    (changes : ∀ x, (g x).current = c x.current) (there : w < p.size) (v : Nat) :
    (p.modifyWorker w g).current? v = if v = w then c (p.current? v) else p.current? v := by
  simp only [current?, modifyWorker, List.getElem?_modify]
  by_cases eq : w = v
  · subst eq
    obtain ⟨x, hx⟩ : ∃ x, p.workers[w]? = some x := ⟨_, List.getElem?_eq_getElem there⟩
    simp [hx, changes]
  · simp [eq, Ne.symm eq]

end ModifyWorker

theorem current?_ofSize (workers : Nat) (catches : Bool) (w : Nat) :
    (ofSize workers catches : WorkerPool J D).current? w = none := by
  simp only [current?, ofSize]
  cases there : (List.replicate workers ({} : Worker J D))[w]? with
  | none => rfl
  | some x => rw [List.eq_of_mem_replicate (List.mem_of_getElem? there), Option.bind_some]

theorem lt_of_current? {d : D} (doing : p.current? w = some d) : w < p.size := by
  obtain ⟨x, hx, -⟩ := Option.bind_eq_some_iff.1 doing
  exact (List.getElem?_eq_some_iff.1 hx).1

theorem lt_of_isServing (serving : p.isServing w) : w < p.size := by
  apply Nat.lt_of_not_le
  intro beyond
  have none : p.workers[w]? = none := List.getElem?_eq_none beyond
  simp [isServing, none] at serving

theorem lt_of_mem_queue {parcel : Parcel J} (mem : parcel ∈ p.queue w) : w < p.size := by
  apply Nat.lt_of_not_le
  intro beyond
  have nobody : p.workers[w]? = none := List.getElem?_eq_none beyond
  simp [queue, nobody] at mem

theorem shard_lt (some : 0 < p.size) (signal : SignalId) : p.shard signal < p.size := Nat.mod_lt _ some

/-! ### What an operation leaves alone -/

/-- Two pools have the same workers: as many, and serving alike. -/
structure Alike (p q : WorkerPool J D) : Prop where
  /-- There are as many workers. -/
  size : q.size = p.size
  /-- Panics are caught or not. -/
  catches : q.catches = p.catches
  /-- The same workers serve their queues. -/
  serving : ∀ w, q.isServing w = p.isServing w

theorem Alike.refl (p : WorkerPool J D) : Alike p p := ⟨rfl, rfl, fun _ => rfl⟩

theorem Alike.trans {r : WorkerPool J D} (first : Alike p q) (second : Alike q r) : Alike p r :=
  ⟨second.size.trans first.size, second.catches.trans first.catches,
    fun w => (second.serving w).trans (first.serving w)⟩

theorem Alike.shard (same : Alike p q) (signal : SignalId) : q.shard signal = p.shard signal := by
  rw [WorkerPool.shard, same.size, WorkerPool.shard]

theorem alike_modifyWorker {g : Worker J D → Worker J D} (same : ∀ x, (g x).alive = x.alive) :
    Alike p (p.modifyWorker w g) :=
  ⟨size_modifyWorker, rfl, isServing_modifyWorker same⟩

/-! ### Sending -/

/-- What is sent to a worker that serves its queue comes at the end of the queue. -/
theorem send_eq (parcel : Parcel J) (serving : p.isServing w) :
    p.send w parcel = (true, p.modifyWorker w fun x => { x with queue := x.queue ++ [parcel] }) :=
  if_pos serving

theorem alike_send (p : WorkerPool J D) (w : Nat) (parcel : Parcel J) : Alike p (p.send w parcel).2 := by
  unfold send
  split
  · exact alike_modifyWorker fun _ => rfl
  · exact .refl p

theorem current?_send (p : WorkerPool J D) (w : Nat) (parcel : Parcel J) (v : Nat) :
    (p.send w parcel).2.current? v = p.current? v := by
  unfold send
  split
  · rename_i serving
    have := current?_modifyWorker (g := fun x => { x with queue := x.queue ++ [parcel] }) (c := id)
      (fun _ => rfl) (lt_of_isServing (p := p) serving) v
    simpa using this
  · rfl

theorem queue_send (parcel : Parcel J) (serving : p.isServing w) (v : Nat) :
    (p.send w parcel).2.queue v = if v = w then p.queue v ++ [parcel] else p.queue v := by
  rw [send_eq parcel serving]
  exact queue_modifyWorker (c := (· ++ [parcel])) (fun _ => rfl) (lt_of_isServing serving) v

/-- Whatever is in a queue after something is sent was there before, or is what was sent. -/
theorem mem_queue_send {v : Nat} {sent parcel : Parcel J} (mem : parcel ∈ (p.send w sent).2.queue v) :
    parcel ∈ p.queue v ∨ v = w ∧ parcel = sent := by
  cases serving : p.isServing w with
  | false =>
    rw [send, if_neg (by simpa [isServing] using serving)] at mem
    exact .inl mem
  | true =>
    rw [queue_send sent serving] at mem
    split at mem
    · rename_i eq
      rcases List.mem_append.1 mem with mem | mem
      · exact .inl mem
      · exact .inr ⟨eq, List.mem_singleton.1 mem⟩
    · exact .inl mem

/-- A job that is posted waits behind all others for its signal. -/
theorem queued_post (signal : SignalId) (job : J) (serving : p.isServing (p.shard signal)) (s : SignalId) :
    (p.post signal job).2.queued s = if s = signal then p.queued s ++ [job] else p.queued s := by
  have same := (alike_send p (p.shard signal) (.job signal job)).shard s
  rw [queued, post, same, queue_send _ serving]
  by_cases eq : s = signal
  · subst eq
    simp [jobsFor, queued]
  · rw [if_neg eq]
    split
    · rw [jobsFor_append]
      simp [jobsFor, queued, Ne.symm eq]
    · rfl

/-! ### Taking up, doing and finishing -/

/-- What a worker that takes something up finds at the head of its queue. -/
inductive Takes (p : WorkerPool J D) (w : Nat) (start : SignalId → J → D) (q : WorkerPool J D) : Prop where
  /-- A job, which it starts. -/
  | job (signal : SignalId) (job : J) (rest : List (Parcel J)) (idle : p.current? w = none)
      (head : p.queue w = .job signal job :: rest)
      (queue : ∀ v, q.queue v = if v = w then rest else p.queue v)
      (current : ∀ v, q.current? v = if v = w then some (start signal job) else p.current? v)
  /-- A marker, which counts for its flush. -/
  | marker (flush : Nat) (rest : List (Parcel J)) (head : p.queue w = .marker flush :: rest)
      (queue : ∀ v, q.queue v = if v = w then rest else p.queue v)
      (current : ∀ v, q.current? v = p.current? v)

theorem next?_eq_some {parcel : Parcel J} (next : p.next? w = some parcel) :
    ∃ rest, p.queue w = parcel :: rest ∧ p.current? w = none ∧ w < p.size := by
  unfold next? at next
  split at next
  · rename_i x hx
    split at next
    · rename_i ready
      simp only [Bool.and_eq_true, Option.isNone_iff_eq_none] at ready
      obtain ⟨rest, eq⟩ : ∃ rest, x.queue = parcel :: rest := by
        cases queue : x.queue with
        | nil => simp [queue] at next
        | cons first rest => exact ⟨rest, by simpa [queue] using next⟩
      exact ⟨rest, by simp [WorkerPool.queue, hx, eq], by simp [current?, hx, ready.2],
        (List.getElem?_eq_some_iff.1 hx).1⟩
    · cases next
  · cases next

/-- A worker that serves its queue and is not doing anything takes up what is first in it. -/
theorem next?_eq_head (serving : p.isServing w = true) (idle : p.current? w = none) : p.next? w = (p.queue w).head? := by
  obtain ⟨x, there⟩ : ∃ x, p.workers[w]? = some x := ⟨_, List.getElem?_eq_getElem (lt_of_isServing serving)⟩
  simp only [isServing, current?, there, Option.map_some, Option.getD_some, Option.bind_some] at serving idle
  simp [next?, queue, there, serving, idle]

theorem exists_take (start : SignalId → J → D) (serving : p.isServing w = true) (idle : p.current? w = none)
    (waits : p.queue w ≠ []) : ∃ q, p.take w start = some q := by
  obtain ⟨parcel, rest, head⟩ := List.exists_cons_of_ne_nil waits
  have next : p.next? w = some parcel := by rw [next?_eq_head serving idle, head, List.head?_cons]
  cases parcel <;> exact ⟨_, by simp only [take, next]; rfl⟩

theorem takes_of_take {start : SignalId → J → D} (taken : p.take w start = some q) :
    Alike p q ∧ p.Takes w start q := by
  unfold take at taken
  split at taken
  · rename_i signal job next
    obtain ⟨rest, head, idle, there⟩ := next?_eq_some next
    cases taken
    refine ⟨alike_modifyWorker fun _ => rfl, .job signal job rest idle head (fun v => ?_) fun v => ?_⟩
    · rw [queue_modifyWorker (c := List.tail) (fun _ => rfl) there]
      split
      · rename_i eq
        rw [eq, head]
        rfl
      · rfl
    · exact current?_modifyWorker (c := fun _ => some (start signal job)) (fun _ => rfl) there v
  · rename_i flush next
    obtain ⟨rest, head, idle, there⟩ := next?_eq_some next
    cases taken
    have alike : Alike p (p.modifyWorker w fun x => { x with queue := x.queue.tail }) :=
      alike_modifyWorker fun _ => rfl
    refine ⟨⟨alike.size, alike.catches, alike.serving⟩, .marker flush rest head (fun v => ?_) fun v => ?_⟩
    · refine (queue_modifyWorker (g := fun x => { x with queue := x.queue.tail }) (c := List.tail)
        (fun _ => rfl) there v).trans ?_
      split
      · rename_i eq
        rw [eq, head]
        rfl
      · rfl
    · refine (current?_modifyWorker (g := fun x => { x with queue := x.queue.tail }) (c := id)
        (fun _ => rfl) there v).trans ?_
      simp
  · cases taken

/-- Only a worker that is not doing anything takes something up. -/
theorem idle_of_take {start : SignalId → J → D} (taken : p.take w start = some q) : p.current? w = none := by
  unfold take at taken
  split at taken
  · rename_i next
    exact (next?_eq_some next).choose_spec.2.1
  · rename_i next
    exact (next?_eq_some next).choose_spec.2.1
  · cases taken

theorem alike_setCurrent (p : WorkerPool J D) (w : Nat) (d : D) : Alike p (p.setCurrent w d) :=
  alike_modifyWorker fun _ => rfl

theorem queue_setCurrent {d e : D} (doing : p.current? w = some e) (v : Nat) :
    (p.setCurrent w d).queue v = p.queue v := by
  refine (queue_modifyWorker (g := fun x => { x with current := some d }) (c := id) (fun _ => rfl)
    (lt_of_current? doing) v).trans ?_
  simp

theorem current?_setCurrent {d e : D} (doing : p.current? w = some e) (v : Nat) :
    (p.setCurrent w d).current? v = if v = w then some d else p.current? v :=
  current?_modifyWorker (c := fun _ => some d) (fun _ => rfl) (lt_of_current? doing) v

theorem alike_finish (p : WorkerPool J D) (w : Nat) : Alike p (p.finish w) :=
  alike_modifyWorker fun _ => rfl

theorem queue_finish {e : D} (doing : p.current? w = some e) (v : Nat) :
    (p.finish w).queue v = p.queue v := by
  refine (queue_modifyWorker (g := fun x => { x with current := none }) (c := id) (fun _ => rfl)
    (lt_of_current? doing) v).trans ?_
  simp

theorem current?_finish {e : D} (doing : p.current? w = some e) (v : Nat) :
    (p.finish w).current? v = if v = w then none else p.current? v :=
  current?_modifyWorker (c := fun _ => none) (fun _ => rfl) (lt_of_current? doing) v

/-! ### The end of a worker -/

theorem size_collapse (p : WorkerPool J D) (w : Nat) : (p.collapse w).size = p.size :=
  size_modifyWorker (g := fun _ => { queue := [], current := none, alive := false })

theorem mem_queue_collapse {v : Nat} {parcel : Parcel J} (mem : parcel ∈ (p.collapse w).queue v) :
    parcel ∈ p.queue v := by
  simp only [queue, collapse, modifyWorker, List.getElem?_modify] at mem
  cases there : p.workers[v]? with
  | none => simp [there] at mem
  | some x =>
    by_cases eq : w = v
    · simp [there, eq] at mem
    · simpa [queue, there, eq] using mem

theorem current?_of_collapse {v : Nat} {d : D} (doing : (p.collapse w).current? v = some d) :
    p.current? v = some d := by
  simp only [current?, collapse, modifyWorker, List.getElem?_modify] at doing
  cases there : p.workers[v]? with
  | none => simp [there] at doing
  | some x =>
    by_cases eq : w = v
    · simp [there, eq] at doing
    · simpa [current?, there, eq] using doing

/-- A worker that ends loses its queue, and the others keep theirs. -/
theorem queue_collapse (p : WorkerPool J D) (w v : Nat) :
    (p.collapse w).queue v = if v = w then [] else p.queue v := by
  simp only [queue, collapse, modifyWorker, List.getElem?_modify]
  by_cases eq : w = v
  · subst eq
    cases p.workers[w]? <;> simp
  · simp [eq, Ne.symm eq]

theorem current?_collapse (p : WorkerPool J D) (w v : Nat) :
    (p.collapse w).current? v = if v = w then none else p.current? v := by
  simp only [current?, collapse, modifyWorker, List.getElem?_modify]
  by_cases eq : w = v
  · subst eq
    cases p.workers[w]? <;> simp
  · simp [eq, Ne.symm eq]

theorem isServing_collapse (p : WorkerPool J D) (w v : Nat) :
    (p.collapse w).isServing v = if v = w then false else p.isServing v := by
  simp only [isServing, collapse, modifyWorker, List.getElem?_modify]
  by_cases eq : w = v
  · subst eq
    cases p.workers[w]? <;> simp
  · simp [eq, Ne.symm eq]

/-! ### Flushes -/

/-- A marker is no job. -/
theorem queued_send_marker (p : WorkerPool J D) (w flush : Nat) (signal : SignalId) :
    (p.send w (.marker flush)).2.queued signal = p.queued signal := by
  have same := (alike_send p w (.marker flush)).shard signal
  cases serving : p.isServing w with
  | false => rw [send, if_neg (by simpa [isServing] using serving)]
  | true =>
    rw [queued, same, queue_send _ serving]
    split
    · rw [jobsFor_append]
      simp [jobsFor, queued]
    · rfl

/-- What a flush does is nothing to the workers, or it sends one of them a marker. -/
structure Marks (p q : WorkerPool J D) : Prop where
  /-- The same workers serve their queues. -/
  alike : Alike p q
  /-- No job is begun or ended. -/
  current : ∀ v, q.current? v = p.current? v
  /-- The jobs that wait for a signal are the same. -/
  queued : ∀ signal, q.queued signal = p.queued signal
  /-- What is new in a queue is a marker. -/
  queue : ∀ v parcel, parcel ∈ q.queue v → parcel ∈ p.queue v ∨ ∃ flush, parcel = .marker flush

theorem marks_of_workers (workers : q.workers = p.workers) (catches : q.catches = p.catches) : Marks p q where
  alike := ⟨by rw [size, workers, size], catches, fun v => by rw [isServing, workers, isServing]⟩
  current v := by rw [current?, workers, current?]
  queued signal := by simp only [queued, WorkerPool.queue, shard, size, workers]
  queue _ _ mem := by
    rw [WorkerPool.queue, workers] at mem
    exact .inl mem

theorem Marks.trans {r : WorkerPool J D} (first : Marks p q) (second : Marks q r) : Marks p r where
  alike := first.alike.trans second.alike
  current v := (second.current v).trans (first.current v)
  queued signal := (second.queued signal).trans (first.queued signal)
  queue v parcel mem := (second.queue v parcel mem).elim (first.queue v parcel) .inr

theorem marks_send (p : WorkerPool J D) (w flush : Nat) : Marks p (p.send w (.marker flush)).2 where
  alike := alike_send p w _
  current := current?_send p w _
  queued := queued_send_marker p w flush
  queue _ _ mem := (mem_queue_send mem).imp_right fun h => ⟨flush, h.2⟩

theorem marks_startFlush (p : WorkerPool J D) : Marks p p.startFlush := marks_of_workers rfl rfl

theorem marks_of_mark {flush : Nat} (marked : p.mark flush = some q) : Marks p q := by
  unfold mark at marked
  split at marked
  · rename_i f known
    split at marked
    · cases marked
      exact (marks_send p f.next flush).trans (marks_of_workers rfl rfl)
    · cases marked
  · cases marked

theorem marks_of_resolve {flush : Nat} (resolved : p.resolve flush = some q) : Marks p q := by
  unfold resolve at resolved
  split at resolved
  · cases resolved
    exact marks_of_workers rfl rfl
  · cases resolved

end WorkerPool

end LazyHub
