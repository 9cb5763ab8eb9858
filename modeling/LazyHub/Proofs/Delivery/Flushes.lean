import LazyHub.Proofs.Delivery.WorkerPool
import Mathlib.Data.List.Nodup
import Mathlib.Tactic.ByContra

/-!
# Flushes and their markers

What a pool keeps of its flushes agrees with its queues: a marker that is awaited was sent and is still queued, and a
worker that has ended has nothing queued, so nothing is awaited of it (`IsOrderly`). Every operation on a pool keeps
this. A flush can therefore always go on: it sends its next marker, or it waits for one that some worker will take up,
or it can be resolved (`IsOrderly.flush_goes_on`).
-/

namespace LazyHub.WorkerPool

variable {J D : Type}

/-- What is kept of the flushes agrees with the queues. -/
structure IsOrderly (p : WorkerPool J D) : Prop where
  /-- Flushes are numbered as they were started. -/
  numbered : ∀ f ∈ p.flushes, f.number < p.flushCount
  /-- No two have the same number. -/
  distinct : (p.flushes.map (·.number)).Nodup
  /-- There is one marker for each worker. -/
  sent : ∀ f ∈ p.flushes, f.next ≤ p.size
  /-- A marker that is awaited was sent and is still queued. -/
  awaited : ∀ f ∈ p.flushes, ∀ w ∈ f.awaited, w < f.next ∧ .marker f.number ∈ p.queue w
  /-- A marker that is queued is one of a flush that was started. -/
  started : ∀ w number, .marker number ∈ p.queue w → number < p.flushCount
  /-- A worker that has ended holds nothing. -/
  ended : ∀ w, p.isServing w = false → p.queue w = [] ∧ p.current? w = none

variable {p q : WorkerPool J D} {w : Nat}

theorem IsOrderly.serving_of_queue (orderly : p.IsOrderly) {parcel : Parcel J} (mem : parcel ∈ p.queue w) :
    p.isServing w = true := by
  by_contra ended
  rw [Bool.not_eq_true] at ended
  rw [(orderly.ended w ended).1] at mem
  cases mem

theorem IsOrderly.serving_of_current (orderly : p.IsOrderly) {d : D} (doing : p.current? w = some d) :
    p.isServing w = true := by
  by_contra ended
  rw [Bool.not_eq_true] at ended
  rw [(orderly.ended w ended).2] at doing
  cases doing

theorem isOrderly_ofSize (workers : Nat) (catches : Bool) : (ofSize workers catches : WorkerPool J D).IsOrderly where
  numbered := nofun
  distinct := List.nodup_nil
  sent := nofun
  awaited := nofun
  started w number mem := by
    have there : w < workers := by simpa [size, ofSize] using lt_of_mem_queue mem
    simp [queue, ofSize, there] at mem
  ended w off := by
    have beyond : ¬ w < workers := by
      intro there
      simp [isServing, ofSize, there] at off
    simp [queue, current?, ofSize, beyond]

/-! ### What the operations keep -/

/-- Whoever leaves the flushes and the markers alone keeps the pool in order. -/
theorem IsOrderly.of_same (orderly : p.IsOrderly) (alike : Alike p q) (flushes : q.flushes = p.flushes)
    (count : q.flushCount = p.flushCount) (markers : ∀ v number, .marker number ∈ q.queue v ↔ .marker number ∈ p.queue v)
    (ended : ∀ v, p.isServing v = false → q.queue v = p.queue v ∧ q.current? v = p.current? v) : q.IsOrderly where
  numbered f mem := by
    rw [count]
    exact orderly.numbered f (flushes ▸ mem)
  distinct := flushes ▸ orderly.distinct
  sent f mem := by
    rw [alike.size]
    exact orderly.sent f (flushes ▸ mem)
  awaited f mem v awaits := by
    rw [markers]
    exact orderly.awaited f (flushes ▸ mem) v awaits
  started v number mem := by
    rw [count]
    exact orderly.started v number ((markers v number).1 mem)
  ended v off := by
    rw [alike.serving] at off
    rw [(ended v off).1, (ended v off).2]
    exact orderly.ended v off

theorem flushes_send (p : WorkerPool J D) (w : Nat) (parcel : Parcel J) :
    (p.send w parcel).2.flushes = p.flushes ∧ (p.send w parcel).2.flushCount = p.flushCount := by
  unfold send
  split <;> exact ⟨rfl, rfl⟩

/-- A worker that has ended is sent nothing. -/
theorem send_of_ended (parcel : Parcel J) (ended : p.isServing w = false) : p.send w parcel = (false, p) :=
  if_neg (by simpa [isServing] using ended)

theorem queue_send_of_ne (parcel : Parcel J) {v : Nat} (other : v ≠ w) : (p.send w parcel).2.queue v = p.queue v := by
  cases serving : p.isServing w with
  | false => rw [send_of_ended parcel serving]
  | true => rw [queue_send parcel serving, if_neg other]

theorem IsOrderly.send_job (orderly : p.IsOrderly) (w : Nat) (signal : SignalId) (job : J) :
    (p.send w (.job signal job)).2.IsOrderly := by
  cases serving : p.isServing w with
  | false =>
    rw [send_of_ended _ serving]
    exact orderly
  | true =>
    refine orderly.of_same (alike_send ..) (flushes_send ..).1 (flushes_send ..).2 (fun v number => ?_) fun v off => ?_
    · rw [queue_send _ serving]
      split <;> simp
    · have other : v ≠ w := by
        rintro rfl
        cases serving.symm.trans off
      exact ⟨queue_send_of_ne _ other, current?_send ..⟩

theorem IsOrderly.setCurrent (orderly : p.IsOrderly) {d e : D} (doing : p.current? w = some e) :
    (p.setCurrent w d).IsOrderly := by
  refine orderly.of_same (alike_setCurrent ..) rfl rfl (fun v number => by rw [queue_setCurrent doing]) fun v off => ?_
  have other : v ≠ w := by
    rintro rfl
    cases (orderly.serving_of_current doing).symm.trans off
  rw [queue_setCurrent doing, current?_setCurrent doing, if_neg other]
  exact ⟨rfl, rfl⟩

theorem IsOrderly.finish (orderly : p.IsOrderly) {e : D} (doing : p.current? w = some e) : (p.finish w).IsOrderly := by
  refine orderly.of_same (alike_finish ..) rfl rfl (fun v number => by rw [queue_finish doing]) fun v off => ?_
  have other : v ≠ w := by
    rintro rfl
    cases (orderly.serving_of_current doing).symm.trans off
  rw [queue_finish doing, current?_finish doing, if_neg other]
  exact ⟨rfl, rfl⟩

theorem IsOrderly.startFlush (orderly : p.IsOrderly) : p.startFlush.IsOrderly where
  numbered f mem := by
    rcases List.mem_append.1 mem with mem | mem
    · exact Nat.lt_succ_of_lt (orderly.numbered f mem)
    · rw [List.mem_singleton.1 mem]
      exact Nat.lt_succ_self _
  distinct := by
    simp only [WorkerPool.startFlush, List.map_append, List.map_cons, List.map_nil]
    refine List.nodup_append.2 ⟨orderly.distinct, List.nodup_singleton _, ?_⟩
    rintro number mem _ new rfl
    obtain ⟨f, old, rfl⟩ := List.mem_map.1 mem
    have := orderly.numbered f old
    rw [List.mem_singleton] at new
    omega
  sent f mem := by
    rcases List.mem_append.1 mem with mem | mem
    · exact orderly.sent f mem
    · rw [List.mem_singleton.1 mem]
      exact Nat.zero_le _
  awaited f mem v awaits := by
    rcases List.mem_append.1 mem with mem | mem
    · exact orderly.awaited f mem v awaits
    · rw [List.mem_singleton.1 mem] at awaits
      cases awaits
  started v number mem := Nat.lt_succ_of_lt (orderly.started v number mem)
  ended := orderly.ended

/-! ### One flush -/

theorem flush?_eq_some {number : Nat} {f : Flush} (known : p.flush? number = some f) : f ∈ p.flushes ∧ f.number = number :=
  ⟨List.mem_of_find?_eq_some known, by simpa using List.find?_some known⟩

/-- Flushes that change, but not their numbers. -/
theorem flush?_of_map {g : Flush → Flush} (keeps : ∀ f, (g f).number = f.number) (flushes : q.flushes = p.flushes.map g)
    (number : Nat) : q.flush? number = (p.flush? number).map g := by
  have same : (fun f : Flush => decide (f.number = number)) ∘ g = fun f => decide (f.number = number) :=
    funext fun f => congrArg (fun n => decide (n = number)) (keeps f)
  rw [flush?, flushes, List.find?_map, same, flush?]

/-- A flush is known by its number. -/
theorem IsOrderly.eq_of_number (orderly : p.IsOrderly) {f g : Flush} (mem : f ∈ p.flushes) (mem' : g ∈ p.flushes)
    (same : f.number = g.number) : f = g :=
  List.inj_on_of_nodup_map orderly.distinct mem mem' same

/-- Change every flush of a number, but not the number. -/
theorem IsOrderly.numbers_map (orderly : p.IsOrderly) {g : Flush → Flush} (keeps : ∀ f, (g f).number = f.number) :
    (∀ f ∈ p.flushes.map g, f.number < p.flushCount) ∧ ((p.flushes.map g).map (·.number)).Nodup := by
  constructor
  · intro f mem
    obtain ⟨f, old, rfl⟩ := List.mem_map.1 mem
    rw [keeps]
    exact orderly.numbered f old
  · have same : (·.number) ∘ g = fun f : Flush => f.number := funext keeps
    rw [List.map_map, same]
    exact orderly.distinct

/-- Sending a flush's next marker. The worker whose turn it is is sent one, which is awaited, or it has ended and
needs none. -/
structure MarksNext (p : WorkerPool J D) (f : Flush) (q : WorkerPool J D) : Prop where
  /-- The flush is under way. -/
  known : f ∈ p.flushes
  /-- Some worker has not had its turn. -/
  there : f.next < p.size
  /-- The workers are the same, and do what they did. -/
  marks : Marks p q
  /-- The marker is the last in its queue. -/
  queue : ∀ v, q.queue v = p.queue v ++ if v = f.next ∧ p.isServing v = true then [.marker f.number] else []
  /-- It is awaited. -/
  flushes : q.flushes = p.flushes.map fun g =>
    if g.number = f.number then
      { g with next := g.next + 1, awaited := g.awaited ++ if p.isServing f.next = true then [g.next] else [] }
    else g
  /-- No flush is started. -/
  count : q.flushCount = p.flushCount

/-- A flush sends its next marker, which is awaited if it is accepted. -/
theorem mark_eq {number : Nat} {f : Flush} (known : p.flush? number = some f) (there : f.next < p.size) :
    p.mark number = some ((p.send f.next (.marker number)).2.modifyFlush number fun g =>
      { g with
        next := g.next + 1
        awaited := if (p.send f.next (.marker number)).1 then g.awaited ++ [g.next] else g.awaited }) := by
  simp only [WorkerPool.mark, known, there, if_true]

theorem marksNext_of_mark {number : Nat} (marked : p.mark number = some q) :
    ∃ f, p.flush? number = some f ∧ p.MarksNext f q := by
  have marks := marks_of_mark marked
  unfold mark at marked
  split at marked
  · rename_i f known
    split at marked
    · rename_i there
      obtain ⟨mem, rfl⟩ := flush?_eq_some known
      cases serving : p.isServing f.next with
      | false =>
        simp only [send_of_ended _ serving, Option.some.injEq] at marked
        subst marked
        refine ⟨f, known, mem, there, marks, fun v => ?_, by simp [modifyFlush, serving], rfl⟩
        have idle : ¬ (v = f.next ∧ p.isServing v = true) := by
          rintro ⟨rfl, on⟩
          cases serving.symm.trans on
        rw [if_neg idle, List.append_nil]
        rfl
      | true =>
        simp only [send_eq _ serving, Option.some.injEq] at marked
        subst marked
        refine ⟨f, known, mem, there, marks, fun v => ?_, by simp [modifyFlush, modifyWorker, serving], rfl⟩
        refine (queue_modifyWorker (g := fun x => { x with queue := x.queue ++ [.marker f.number] })
          (c := (· ++ [.marker f.number])) (fun _ => rfl) there v).trans ?_
        by_cases here : v = f.next
        · subst here
          simp [serving]
        · simp [here]
    · cases marked
  · cases marked

theorem IsOrderly.marksNext {f : Flush} (orderly : p.IsOrderly) (next : p.MarksNext f q) : q.IsOrderly := by
  have numbers := orderly.numbers_map (g := fun g => if g.number = f.number then
    { g with next := g.next + 1, awaited := g.awaited ++ if p.isServing f.next = true then [g.next] else [] } else g)
    fun g => by split <;> rfl
  rw [← next.flushes, ← next.count] at numbers
  have grows : ∀ v parcel, parcel ∈ p.queue v → parcel ∈ q.queue v := by
    intro v parcel mem
    rw [next.queue]
    exact List.mem_append_left _ mem
  refine ⟨numbers.1, numbers.2, ?_, ?_, ?_, ?_⟩
  · rw [next.flushes, next.marks.alike.size]
    intro g mem
    obtain ⟨g, old, rfl⟩ := List.mem_map.1 mem
    split
    · rename_i same
      rw [orderly.eq_of_number old next.known same]
      exact next.there
    · exact orderly.sent g old
  · rw [next.flushes]
    intro g mem v awaits
    obtain ⟨g, old, rfl⟩ := List.mem_map.1 mem
    by_cases same : g.number = f.number
    · obtain rfl := orderly.eq_of_number old next.known same
      simp only [if_true] at awaits ⊢
      rcases List.mem_append.1 awaits with awaits | new
      · obtain ⟨before, queued⟩ := orderly.awaited g old v awaits
        exact ⟨Nat.lt_succ_of_lt before, grows v _ queued⟩
      · split at new
        · rename_i serving
          obtain rfl := List.mem_singleton.1 new
          refine ⟨Nat.lt_succ_self _, ?_⟩
          rw [next.queue, if_pos ⟨rfl, serving⟩]
          exact List.mem_append_right _ (List.mem_singleton_self _)
        · cases new
    · rw [if_neg same] at awaits ⊢
      obtain ⟨before, queued⟩ := orderly.awaited g old v awaits
      exact ⟨before, grows v _ queued⟩
  · intro v number mem
    rw [next.count]
    rw [next.queue] at mem
    rcases List.mem_append.1 mem with mem | new
    · exact orderly.started v number mem
    · split at new
      · obtain ⟨⟩ := List.mem_singleton.1 new
        exact orderly.numbered f next.known
      · cases new
  · intro v off
    rw [next.marks.alike.serving] at off
    rw [next.queue, next.marks.current, off]
    simpa using orderly.ended v off

theorem IsOrderly.mark {number : Nat} (orderly : p.IsOrderly) (marked : p.mark number = some q) : q.IsOrderly := by
  obtain ⟨f, -, next⟩ := marksNext_of_mark marked
  exact orderly.marksNext next

/-- What resolving a flush does: it was sent everywhere, nothing of it is awaited, and it is forgotten. -/
theorem resolve_eq_some {number : Nat} (resolved : p.resolve number = some q) :
    (∃ f, p.flush? number = some f ∧ f.next = p.size ∧ f.awaited = []) ∧
      q = { p with flushes := p.flushes.filter (·.number ≠ number) } := by
  unfold resolve at resolved
  split at resolved
  · rename_i ended
    unfold isResolved at ended
    split at ended
    · rename_i f known
      rw [Bool.and_eq_true, List.isEmpty_iff, decide_eq_true_iff] at ended
      cases resolved
      exact ⟨⟨f, known, ended.1, ended.2⟩, rfl⟩
    · cases ended
  · cases resolved

theorem IsOrderly.resolve {number : Nat} (orderly : p.IsOrderly) (resolved : p.resolve number = some q) :
    q.IsOrderly := by
  obtain ⟨-, rfl⟩ := resolve_eq_some resolved
  have old : ∀ f ∈ p.flushes.filter (·.number ≠ number), f ∈ p.flushes := fun f mem => (List.mem_filter.1 mem).1
  exact ⟨fun f mem => orderly.numbered f (old f mem), (List.filter_sublist.map _).nodup orderly.distinct,
    fun f mem => orderly.sent f (old f mem), fun f mem => orderly.awaited f (old f mem), orderly.started, orderly.ended⟩

/-- The flushes after a worker took something up: a marker is no longer awaited. -/
def settled (w : Nat) (flushes : List Flush) : Parcel J → List Flush
  | .job .. => flushes
  | .marker number => flushes.map fun f => if f.number = number then { f with awaited := f.awaited.filter (· ≠ w) } else f

theorem flushes_of_take {start : SignalId → J → D} (taken : p.take w start = some q) :
    q.flushCount = p.flushCount ∧ ∃ parcel rest, p.queue w = parcel :: rest ∧ q.flushes = settled w p.flushes parcel := by
  unfold take at taken
  split at taken
  · rename_i signal job next
    obtain ⟨rest, head, -⟩ := next?_eq_some next
    cases taken
    exact ⟨rfl, _, rest, head, rfl⟩
  · rename_i number next
    obtain ⟨rest, head, -⟩ := next?_eq_some next
    cases taken
    exact ⟨rfl, _, rest, head, rfl⟩
  · cases taken

/-- A worker that ends, or takes up a marker, is no longer awaited. -/
theorem IsOrderly.of_awaited_filter (orderly : p.IsOrderly) {c : Flush → Bool} (size : q.size = p.size)
    (count : q.flushCount = p.flushCount)
    (flushes : q.flushes = p.flushes.map fun f => if c f then { f with awaited := f.awaited.filter (· ≠ w) } else f)
    (shrinks : ∀ v parcel, parcel ∈ q.queue v → parcel ∈ p.queue v)
    (stays : ∀ f ∈ p.flushes, ∀ v, v ≠ w ∨ c f = false → .marker f.number ∈ p.queue v → .marker f.number ∈ q.queue v)
    (ended : ∀ v, q.isServing v = false → q.queue v = [] ∧ q.current? v = none) : q.IsOrderly := by
  have numbers := orderly.numbers_map (g := fun f => if c f then { f with awaited := f.awaited.filter (· ≠ w) } else f)
    fun f => by split <;> rfl
  rw [← flushes, ← count] at numbers
  refine ⟨numbers.1, numbers.2, ?_, ?_, fun v number mem => count ▸ orderly.started v number (shrinks v _ mem), ended⟩
  · rw [flushes, size]
    intro f mem
    obtain ⟨f, old, rfl⟩ := List.mem_map.1 mem
    split <;> exact orderly.sent f old
  · rw [flushes]
    intro f mem v awaits
    obtain ⟨f, old, rfl⟩ := List.mem_map.1 mem
    cases concerned : c f with
    | false =>
      simp only [concerned, Bool.false_eq_true, if_false] at awaits ⊢
      obtain ⟨before, queued⟩ := orderly.awaited f old v awaits
      exact ⟨before, stays f old v (.inr concerned) queued⟩
    | true =>
      simp only [concerned, if_true, List.mem_filter, decide_eq_true_iff] at awaits ⊢
      obtain ⟨before, queued⟩ := orderly.awaited f old v awaits.1
      exact ⟨before, stays f old v (.inl awaits.2) queued⟩

theorem IsOrderly.take {start : SignalId → J → D} (orderly : p.IsOrderly) (taken : p.take w start = some q) :
    q.IsOrderly := by
  obtain ⟨alike, takes⟩ := takes_of_take taken
  obtain ⟨count, parcel, rest, head, flushes⟩ := flushes_of_take taken
  have serving : p.isServing w = true := orderly.serving_of_queue (head ▸ List.mem_cons_self)
  have ended : ∀ v, p.isServing v = false → v ≠ w := by
    rintro v off rfl
    cases serving.symm.trans off
  cases takes with
  | job signal job rest' idle head' queue current =>
    obtain ⟨rfl, rfl⟩ := List.cons.inj (head.symm.trans head')
    refine orderly.of_same alike flushes count (fun v number => ?_) fun v off => ?_
    · rw [queue]
      split
      · rename_i here
        rw [here, head]
        simp
      · rfl
    · rw [queue, current, if_neg (ended v off), if_neg (ended v off)]
      exact ⟨rfl, rfl⟩
  | marker number rest' head' queue current =>
    obtain ⟨rfl, rfl⟩ := List.cons.inj (head.symm.trans head')
    refine orderly.of_awaited_filter (c := fun f => f.number = number) alike.size count (by simpa [settled] using flushes)
      (fun v parcel mem => ?_) (fun f mem v other queued => ?_) fun v off => ?_
    · rw [queue] at mem
      split at mem
      · rename_i here
        rw [here, head]
        exact List.mem_cons_of_mem _ mem
      · exact mem
    · rw [queue]
      split
      · rename_i here
        rw [here, head] at queued
        rcases List.mem_cons.1 queued with eq | later
        · obtain ⟨⟩ := eq
          simp [here] at other
        · exact later
      · exact queued
    · rw [alike.serving] at off
      rw [queue, current, if_neg (ended v off)]
      exact orderly.ended v off

theorem IsOrderly.collapse (orderly : p.IsOrderly) (w : Nat) : (p.collapse w).IsOrderly := by
  refine orderly.of_awaited_filter (c := fun _ => true) (w := w) (size_collapse p w) rfl (by simp [WorkerPool.collapse, modifyWorker])
    (fun v parcel mem => mem_queue_collapse mem) (fun f mem v other queued => ?_) fun v off => ?_
  · rw [queue_collapse, if_neg (by simpa using other)]
    exact queued
  · rw [isServing_collapse] at off
    rw [queue_collapse, current?_collapse]
    split at off
    · rename_i here
      simp [here]
    · rename_i elsewhere
      rw [if_neg elsewhere, if_neg elsewhere]
      exact orderly.ended v off

/-! ### A flush can go on -/

/-- **A flush sends its markers one by one, and is over when none of them is queued any more.** -/
theorem IsOrderly.flush_goes_on {number : Nat} {f : Flush} (orderly : p.IsOrderly) (known : p.flush? number = some f) :
    (f.next < p.size → ∃ q, p.mark number = some q) ∧
      (f.next = p.size → (∀ w, .marker number ∉ p.queue w) → ∃ q, p.resolve number = some q) := by
  obtain ⟨mem, rfl⟩ := flush?_eq_some known
  constructor
  · intro there
    exact ⟨_, by simp only [WorkerPool.mark, known, there, if_true]; rfl⟩
  · intro everywhere taken
    have nobody : f.awaited = [] := by
      refine List.eq_nil_iff_forall_not_mem.2 fun w awaits => ?_
      exact taken w (orderly.awaited f mem w awaits).2
    exact ⟨_, by simp [WorkerPool.resolve, isResolved, known, everywhere, nobody]; rfl⟩

end LazyHub.WorkerPool
