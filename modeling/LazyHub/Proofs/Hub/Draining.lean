import LazyHub.Proofs.Hub.Workers
import Mathlib.Algebra.BigOperators.Group.Finset.Basic

/-!
# The workers come to rest

`Hub.work` counts the steps that the workers have before them: for each job that waits, taking it up,
calling everyone who is subscribed, and finishing. Each step of a worker takes one off the count
(`Transition.work_eq`), and a worker that has anything left can make a step (`exists_work_step_at`). So
if nothing else happens the workers come to rest, in whatever order they go on (`work_of_run`,
`exists_drain`).
-/

namespace LazyHub

variable {V H R : Type}

/-- The steps by which workers do what waits for them. -/
def HubLabel.IsWork : HubLabel V H R → Prop
  | .move (.take _) | .move (.call _) | .move (.returned ..) | .move (.finish _) => True
  | _ => False

theorem HubLabel.IsWork.isOwn {l : HubLabel V H R} (works : l.IsWork) : l.IsOwn := by
  cases l with
  | use => exact works.elim
  | _ => trivial

/-- The worker that makes a step to do what waits for it. -/
def HubLabel.worker? : HubLabel V H R → Option Nat
  | .move (.take w) | .move (.call w) | .move (.returned w _) | .move (.finish w) => some w
  | _ => none

/-- The worker whose call panics in a step. -/
def HubLabel.panic? : HubLabel V H R → Option Nat
  | .move (.returned w true) => some w
  | _ => none

theorem HubLabel.isWork_of_worker? {l : HubLabel V H R} {w : Nat} (by' : l.worker? = some w) : l.IsWork := by
  unfold worker? at by'
  split at by' <;> trivial

/-- Nothing waits at any worker, and none is delivering anything. -/
def WorkerPool.IsDrained {J D : Type} (p : WorkerPool J D) : Prop :=
  ∀ w, p.queue w = [] ∧ p.current? w = none

/-- How many steps a delivery takes: two for each subscriber, and its end. -/
def Delivery.work (d : Delivery V H) : Nat :=
  2 * d.waiting.length + (if d.calling.isSome then 1 else 0) + 1

namespace Hub

/-- How many steps a parcel takes: a job is taken up and delivered, a marker is taken up. -/
def workFor (h : Hub V H R) : Parcel (Notice V) → Nat
  | .job signal notice => 2 * (h.subscribersOf notice.feed signal).length + 2
  | .marker _ => 1

/-- How many steps a worker has before it. -/
def workAt (h : Hub V H R) (w : Nat) : Nat :=
  ((h.pool.queue w).map h.workFor).sum + ((h.pool.current? w).map (·.work)).getD 0

/-- How many steps the workers have before them. -/
def work (h : Hub V H R) : Nat := ∑ w ∈ Finset.range h.pool.size, h.workAt w

/-- What is taken off the work of one worker is taken off the work of all. -/
theorem work_eq_of_at {h : Hub V H R} {p : WorkerPool (Notice V) (Delivery V H)} {w n : Nat}
    (size : p.size = h.pool.size) (there : w < h.pool.size) (queue : ∀ v ≠ w, p.queue v = h.pool.queue v)
    (current : ∀ v ≠ w, p.current? v = h.pool.current? v)
    (less : Hub.workAt { h with pool := p } w + n = h.workAt w) :
    Hub.work { h with pool := p } + n = h.work := by
  have mem : w ∈ Finset.range h.pool.size := Finset.mem_range.2 there
  have others : ∑ v ∈ (Finset.range h.pool.size).erase w, Hub.workAt { h with pool := p } v =
      ∑ v ∈ (Finset.range h.pool.size).erase w, h.workAt v := by
    apply Finset.sum_congr rfl
    intro v hv
    have ne := Finset.ne_of_mem_erase hv
    simp only [workAt, queue v ne, current v ne]
    rfl
  simp only [work, size]
  rw [← Finset.add_sum_erase _ _ mem, ← Finset.add_sum_erase _ h.workAt mem, others]
  omega

/-- A worker without work has nothing queued and delivers nothing. -/
theorem idle_of_workAt {h : Hub V H R} {w : Nat} (idle : h.workAt w = 0) :
    h.pool.queue w = [] ∧ h.pool.current? w = none := by
  obtain ⟨queue, current⟩ := Nat.add_eq_zero_iff.1 idle
  constructor
  · cases eq : h.pool.queue w with
    | nil => rfl
    | cons parcel rest =>
      rw [eq] at queue
      cases parcel <;> simp [workFor] at queue
  · cases eq : h.pool.current? w with
    | none => rfl
    | some d => simp [eq, Delivery.work] at current

theorem isDrained_of_work {h : Hub V H R} (idle : h.work = 0) : h.pool.IsDrained := by
  intro w
  by_cases there : w < h.pool.size
  · exact idle_of_workAt (Finset.sum_eq_zero_iff.1 idle w (Finset.mem_range.2 there))
  · have nobody : h.pool.workers[w]? = none := List.getElem?_eq_none (Nat.le_of_not_lt there)
    simp [WorkerPool.queue, WorkerPool.current?, nobody]

variable [SignalValue V]

/-- **Each step of a worker that goes on takes one off its work**, and touches nothing but the pool. -/
theorem Transition.work_eq {h : Hub V H R} {l : HubLabel V H R} {r : Result V H R} (t : h.Transition l r)
    (works : l.IsWork) (goesOn : h.pool.catches = true ∨ l.panic? = none) :
    r.state.work + 1 = h.work ∧ r.state.feeds = h.feeds ∧ r.state.life = h.life := by
  have on_current : ∀ {w : Nat} {d e : Delivery V H}, h.pool.current? w = some d → e.work + 1 = d.work →
      Hub.work { h with pool := h.pool.setCurrent w e } + 1 = h.work := by
    intro w d e doing one
    refine work_eq_of_at (WorkerPool.alike_setCurrent ..).size (WorkerPool.lt_of_current? doing)
      (fun v _ => WorkerPool.queue_setCurrent doing v) (fun v ne => ?_) ?_
    · rw [WorkerPool.current?_setCurrent doing, if_neg ne]
    · simp only [workAt, WorkerPool.queue_setCurrent doing, WorkerPool.current?_setCurrent doing, if_true,
        doing, Option.map_some, Option.getD_some, ← one]
      exact Nat.add_assoc ..
  cases t with
  | feed serves => cases serves <;> exact works.elim
  | @take w p taken =>
    obtain ⟨alike, takes⟩ := WorkerPool.takes_of_take taken
    refine ⟨?_, rfl, rfl⟩
    cases takes with
    | job signal notice rest idle head queue current =>
      refine work_eq_of_at alike.size (WorkerPool.lt_of_mem_queue (head ▸ List.mem_cons_self))
        (fun v ne => by rw [queue, if_neg ne]) (fun v ne => by rw [current, if_neg ne]) ?_
      simp only [workAt, queue, current, if_true, head, idle, Option.map_some, Option.map_none,
        Option.getD_some, Option.getD_none, List.map_cons, List.sum_cons]
      change (rest.map h.workFor).sum + (2 * (h.subscribersOf notice.feed signal).length + 0 + 1) + 1 =
        2 * (h.subscribersOf notice.feed signal).length + 2 + (rest.map h.workFor).sum + 0
      omega
    | marker flush rest head queue current =>
      refine work_eq_of_at alike.size (WorkerPool.lt_of_mem_queue (head ▸ List.mem_cons_self))
        (fun v ne => by rw [queue, if_neg ne]) (fun v _ => current v) ?_
      simp only [workAt, queue, current, if_true, head, List.map_cons, List.sum_cons]
      change (rest.map h.workFor).sum + _ + 1 = 1 + (rest.map h.workFor).sum + _
      omega
  | call doing => exact ⟨on_current doing (by simp [Delivery.work]; omega), rfl, rfl⟩
  | returned doing => exact ⟨on_current doing (by simp [Delivery.work]), rfl, rfl⟩
  | collapsed doing uncaught =>
    rcases goesOn with catches | calm
    · cases catches.symm.trans uncaught
    · cases calm
  | finish doing =>
    refine ⟨work_eq_of_at (WorkerPool.alike_finish ..).size (WorkerPool.lt_of_current? doing)
      (fun v _ => WorkerPool.queue_finish doing v) (fun v ne => ?_) ?_, rfl, rfl⟩
    · rw [WorkerPool.current?_finish doing, if_neg ne]
    · simp only [workAt, WorkerPool.queue_finish doing, WorkerPool.current?_finish doing, if_true, doing]
      exact Nat.add_assoc ..
  | _ => exact works.elim

/-- **A worker that has work before it can go on**, and whoever it calls can return. -/
theorem exists_work_step_at {h : Hub V H R} {w : Nat} (serving : h.pool.isServing w = true) (busy : h.workAt w ≠ 0) :
    ∃ l r, HubLabel.worker? (R := R) l = some w ∧ l.panic? = none ∧ h.step l = some r := by
  cases doing : h.pool.current? w with
  | some d =>
    obtain ⟨signal, value, waiting, calling⟩ := d
    cases calling with
    | some e => exact ⟨.move (.returned w false), _, rfl, rfl, by simp [step, act, callReturned, doing]; rfl⟩
    | none =>
      cases waiting with
      | nil => exact ⟨.move (.finish w), _, rfl, rfl, by simp [step, act, doing]; rfl⟩
      | cons e rest => exact ⟨.move (.call w), _, rfl, rfl, by simp [step, act, callNext, doing]; rfl⟩
  | none =>
    have waits : h.pool.queue w ≠ [] := by
      intro nothing
      simp [workAt, nothing, doing] at busy
    obtain ⟨pool, taken⟩ := WorkerPool.exists_take
      (fun signal notice => { signal, value := notice.value, waiting := h.subscribersOf notice.feed signal }) serving doing
      waits
    exact ⟨.move (.take w), _, rfl, rfl, by simp only [step, act, taken]; rfl⟩

/-- As long as there is work, some worker can go on. -/
theorem exists_work_step {h : Hub V H R} (serving : ∀ w < h.pool.size, h.pool.isServing w)
    (left : h.work ≠ 0) : ∃ l r, HubLabel.IsWork (R := R) l ∧ h.step l = some r := by
  obtain ⟨w, mem, busy⟩ : ∃ w ∈ Finset.range h.pool.size, h.workAt w ≠ 0 := by
    by_contra idle
    exact left (Finset.sum_eq_zero fun w hw => not_not.1 fun busy => idle ⟨w, hw, busy⟩)
  obtain ⟨l, r, by', -, made⟩ := exists_work_step_at (serving w (Finset.mem_range.1 mem)) busy
  exact ⟨l, r, HubLabel.isWork_of_worker? by', made⟩

/-! ### Runs -/

/-- **The workers cannot go on for ever**: a run of theirs takes off the work as much as it is long. -/
theorem work_of_run {labels : List (HubLabel V H R)} {h k : Hub V H R} {es : List (HubEffect V H)}
    (works : ∀ l ∈ labels, l.IsWork) (catches : h.pool.catches = true)
    (ran : run Hub.step labels h = some (k, es)) :
    labels.length + k.work = h.work ∧ k.feeds = h.feeds := by
  induction labels generalizing h es with
  | nil =>
    cases ran
    exact ⟨Nat.zero_add _, rfl⟩
  | cons l rest ih =>
    obtain ⟨r, later, made, onward, rfl⟩ := run_cons.1 ran
    have t := transition_of_step made
    obtain ⟨one, feeds, -⟩ := t.work_eq (works l List.mem_cons_self) (.inl catches)
    obtain ⟨more, same⟩ :=
      ih (fun l hl => works l (List.mem_cons_of_mem _ hl)) (t.staff.2.trans catches) onward
    refine ⟨?_, same.trans feeds⟩
    rw [List.length_cons]
    omega

/-- **The workers come to rest**, if they are left to go on. -/
theorem exists_drain {settings : Settings} {plans : List (FeedPlan V)} (catches : settings.catches = true)
    {n : Nat} {h : Hub V H R} (reachable : Reachable settings plans h) (kept : h.life ≠ .closed)
    (left : h.work = n) :
    ∃ labels k es, (∀ l ∈ labels, HubLabel.IsWork l) ∧ run Hub.step labels h = some (k, es) ∧
      k.pool.IsDrained ∧ k.feeds = h.feeds := by
  induction n generalizing h with
  | zero => exact ⟨[], h, [], nofun, rfl, isDrained_of_work left, rfl⟩
  | succ n ih =>
    have staffed := reachable.staffed
    obtain ⟨l, r, works, made⟩ := exists_work_step (staffed.serving catches kept) (by omega)
    obtain ⟨one, feeds, life⟩ := (transition_of_step made).work_eq works (.inl (staffed.catches.trans catches))
    obtain ⟨labels, k, es, works', ran, drained, same⟩ :=
      ih (reachable.step works.isOwn made) (life ▸ kept) (by omega)
    exact ⟨l :: labels, k, _, List.forall_mem_cons.2 ⟨works, works'⟩, run_cons.2 ⟨r, es, made, ran, rfl⟩,
      drained, same.trans feeds⟩

end Hub

end LazyHub
