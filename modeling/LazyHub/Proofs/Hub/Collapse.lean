import LazyHub.Proofs.Delivery.Flushes
import LazyHub.Proofs.Hub.Draining

/-!
# Workers that end

A panic that is not caught ends the worker whose call it is, for good (`Hub.HasEnded`): it is not heard of again, what
waits for it is lost, and what is posted to it later is dropped. Of those who were subscribed when its last delivery
began it has called the ones up to the one that panicked, and nobody after that
(`Hub.endsWorker_of_run`).

A flush does not wait for a worker that has ended. Whatever calls panic, a flush that is under way goes on
(`Hub.flush_goes_on`), and is over in the end (`Hub.flushWork_of_run`).
-/

namespace LazyHub

variable {V H R : Type}

namespace Hub

/-! ### The pools of hubs -/

theorem isOrderly_absorbAll {h : Hub V H R} (orderly : h.pool.IsOrderly) (i : Nat) (es : List (FeedEffect V)) :
    (h.absorbAll i es).1.pool.IsOrderly := by
  induction es generalizing h with
  | nil => exact orderly
  | cons e rest ih =>
    refine ih (h := (h.absorb i e).1) ?_
    cases e with
    | owed signal value => exact orderly.send_job _ signal ⟨i, value⟩
    | _ => exact orderly

section Step

variable [SignalValue V] {settings : Settings} {plans : List (FeedPlan V)} {h : Hub V H R} {l : HubLabel V H R}
  {r : Result V H R} {w : Nat}

/-- Whatever a hub does, its pool stays in order. -/
theorem Transition.isOrderly (t : h.Transition l r) (orderly : h.pool.IsOrderly) : r.state.pool.IsOrderly := by
  cases t with
  | @feed l i fl g f fr serves =>
    exact isOrderly_absorbAll (h := { g with feeds := g.feeds.set i fr.state }) (serves.pool_eq ▸ orderly) i fr.effects
  | take taken => exact orderly.take taken
  | call doing | returned doing => exact orderly.setCurrent doing
  | collapsed | stop => exact orderly.collapse _
  | finish doing => exact orderly.finish doing
  | startFlush => exact orderly.startFlush
  | mark marked => exact orderly.mark marked
  | resolve resolved => exact orderly.resolve resolved
  | _ => exact orderly

theorem isOrderly_of_run {k : Hub V H R} {labels : List (HubLabel V H R)} {es : List (HubEffect V H)}
    (orderly : h.pool.IsOrderly) (ran : run Hub.step labels h = some (k, es)) : k.pool.IsOrderly :=
  run_keeps (P := fun s => s.pool.IsOrderly)
    (fun _ _ _ _ orderly made => (transition_of_step made).isOrderly orderly) ran orderly

theorem Reachable.pool_isOrderly (reachable : Reachable settings plans h) : h.pool.IsOrderly := by
  induction reachable with
  | assembled start =>
    obtain ⟨-, rfl⟩ := eq_of_assemble start
    exact WorkerPool.isOrderly_ofSize ..
  | step _ _ made ih => exact (transition_of_step made).isOrderly ih

/-! ### Workers that have ended -/

/-- **A worker that has ended.** -/
structure HasEnded (h : Hub V H R) (w : Nat) : Prop where
  /-- It does not serve its queue. -/
  serving : h.pool.isServing w = false
  /-- Nothing waits for it. -/
  queue : h.pool.queue w = []
  /-- It is not doing anything. -/
  current : h.pool.current? w = none
  /-- What is owed to the subscribers of its signals is dropped, which is noted. -/
  drops : ∀ i signal value, h.pool.shard signal = w →
    h.absorb i (.owed signal value) = (h, [.noted (.workerGone signal)])

omit [SignalValue V] in
theorem hasEnded_of_isOrderly (orderly : h.pool.IsOrderly) (off : h.pool.isServing w = false) : h.HasEnded w where
  serving := off
  queue := (orderly.ended w off).1
  current := (orderly.ended w off).2
  drops i signal value here := by
    have refused : h.pool.post signal ⟨i, value⟩ = (false, h.pool) := WorkerPool.send_of_ended _ (here ▸ off)
    simp [absorb, refused]

/-- No worker begins to serve its queue. -/
theorem Transition.isServing_of (t : h.Transition l r) (serving : r.state.pool.isServing w = true) :
    h.pool.isServing w = true := by
  have of_alike : ∀ {p : WorkerPool (Notice V) (Delivery V H)}, WorkerPool.Alike h.pool p → p.isServing w = true →
      h.pool.isServing w = true := fun alike serving => (alike.serving w).symm.trans serving
  cases t with
  | feed serves => exact of_alike (serves.pool_eq ▸ (posted_afterFeed ..).alike) serving
  | take taken => exact of_alike (WorkerPool.takes_of_take taken).1 serving
  | call | returned => exact of_alike (WorkerPool.alike_setCurrent ..) serving
  | collapsed | stop =>
    rw [WorkerPool.isServing_collapse] at serving
    split at serving
    · cases serving
    · exact serving
  | finish => exact of_alike (WorkerPool.alike_finish ..) serving
  | startFlush => exact of_alike (WorkerPool.marks_startFlush _).alike serving
  | mark marked => exact of_alike (WorkerPool.marks_of_mark marked).alike serving
  | resolve resolved => exact of_alike (WorkerPool.marks_of_resolve resolved).alike serving
  | _ => exact serving

theorem Transition.hasEnded (t : h.Transition l r) (orderly : h.pool.IsOrderly) (ended : h.HasEnded w) :
    r.state.HasEnded w := by
  refine hasEnded_of_isOrderly (t.isOrderly orderly) ?_
  by_contra serving
  rw [Bool.not_eq_false] at serving
  cases ended.serving.symm.trans (t.isServing_of serving)

/-- A worker that has ended makes no step. -/
theorem HasEnded.worker?_ne (ended : h.HasEnded w) (t : h.Transition l r) : l.worker? ≠ some w := by
  have idle : ∀ {v : Nat} {d : Delivery V H}, h.pool.current? v = some d → some v ≠ some w := by
    rintro v d doing ⟨⟩
    cases ended.current.symm.trans doing
  cases t with
  | feed serves => cases serves <;> nofun
  | take taken =>
    rintro ⟨⟩
    obtain ⟨-, parcel, rest, head, -⟩ := WorkerPool.flushes_of_take taken
    cases ended.queue.symm.trans head
  | call doing | returned doing | collapsed doing | finish doing => exact idle doing
  | _ => nofun

/-- **A worker that has ended is not heard of again.** -/
theorem HasEnded.of_run {k : Hub V H R} {labels : List (HubLabel V H R)} {es : List (HubEffect V H)} (ended : h.HasEnded w)
    (orderly : h.pool.IsOrderly) (ran : run Hub.step labels h = some (k, es)) :
    (∀ m ∈ trail Hub.step labels h, m.before.HasEnded w ∧ m.label.worker? ≠ some w) ∧ k.HasEnded w := by
  have keeps : ∀ l ∈ labels, ∀ {s r}, (s.pool.IsOrderly ∧ s.HasEnded w) → Hub.step s l = some r →
      r.state.pool.IsOrderly ∧ r.state.HasEnded w := fun l _ _ _ kept made =>
    ⟨(transition_of_step made).isOrderly kept.1, (transition_of_step made).hasEnded kept.1 kept.2⟩
  refine ⟨fun m mem => ?_, (run_keeps keeps ran ⟨orderly, ended⟩).2⟩
  obtain ⟨-, kept, made⟩ := of_mem_trail keeps ⟨orderly, ended⟩ m mem
  exact ⟨kept.2, kept.2.worker?_ne (transition_of_step made)⟩

/-- A panic that is not caught ends its worker. -/
theorem Transition.hasEnded_of_panic (t : h.Transition l r) (orderly : h.pool.IsOrderly) (uncaught : h.pool.catches = false)
    (panics : l.panic? = some w) : r.state.HasEnded w := by
  refine hasEnded_of_isOrderly (t.isOrderly orderly) ?_
  cases t with
  | feed serves => cases serves <;> cases panics
  | @returned v panicked _ _ _ _ _ _ caught =>
    cases panicked with
    | false => cases panics
    | true => cases uncaught.symm.trans (caught rfl)
  | collapsed doing =>
    cases panics
    rw [WorkerPool.isServing_collapse, if_pos rfl]
  | _ => cases panics

end Step

/-! ### The last delivery of a worker that ends -/

/-- What a worker called in the course of a history. -/
def callsBy (w : Nat) (past : List (Moment (Hub V H R) (HubLabel V H R) (HubEffect V H))) : List (HubEffect V H) :=
  past.flatMap fun m =>
    match m.label with
    | .move (.call v) => if v = w then m.after.effects else []
    | _ => []

theorem callsBy_append (w : Nat) (first second : List (Moment (Hub V H R) (HubLabel V H R) (HubEffect V H))) :
    callsBy w (first ++ second) = callsBy w first ++ callsBy w second := List.flatMap_append ..

theorem callsBy_singleton {w : Nat} {m : Moment (Hub V H R) (HubLabel V H R) (HubEffect V H)}
    (other : m.label ≠ .move (.call w)) : callsBy w [m] = [] := by
  rw [callsBy, List.flatMap_singleton]
  split
  · rename_i v called
    refine if_neg ?_
    rintro rfl
    exact other called
  · rfl

theorem callsBy_eq_nil {w : Nat} {past : List (Moment (Hub V H R) (HubLabel V H R) (HubEffect V H))}
    (others : ∀ m ∈ past, m.label.worker? ≠ some w) : callsBy w past = [] := by
  induction past with
  | nil => rfl
  | cons m rest ih =>
    obtain ⟨other, others⟩ := List.forall_mem_cons.1 others
    have silent : callsBy w [m] = [] := callsBy_singleton fun called => other (congrArg _ called)
    rw [← List.singleton_append, callsBy_append, silent, ih others, List.append_nil]

end Hub

/-- What a delivery calls its subscribers with. -/
def Delivery.callsFor (d : Delivery V H) (called : List (Token × H)) : List (HubEffect V H) :=
  called.map fun e => .called e.1 e.2 d.signal d.value

/-- **How a delivery came about.** It began in a step `t`, and in the steps `during` since then its worker has called
the first of those who were subscribed. -/
structure Delivery.ComesFrom (d : Delivery V H) (w : Nat) (t : Moment (Hub V H R) (HubLabel V H R) (HubEffect V H))
    (during : List (Moment (Hub V H R) (HubLabel V H R) (HubEffect V H))) (called : List (Token × H)) : Prop where
  /-- The worker took up a job. -/
  taken : t.label = .move (.take w)
  /-- It was the first in the queue, and those who were subscribed were called or wait to be. -/
  job : ∃ i rest, t.before.pool.queue w = .job d.signal ⟨i, d.value⟩ :: rest ∧
    t.before.subscribersOf i d.signal = called ++ d.waiting
  /-- Nobody else was called by the worker. -/
  calls : Hub.callsBy w during = d.callsFor called
  /-- The one who is being called is the last who was called. -/
  last : ∀ e, d.calling = some e → ∃ before, called = before ++ [e]

namespace Hub

/-- The entries of a list in ascending order up to one of them. -/
theorem filter_le_eq {before rest : List (Token × H)} {e : Token × H}
    (ascending : (before ++ [e] ++ rest).Pairwise fun a b => a.1.serial < b.1.serial) :
    (before ++ [e] ++ rest).filter (·.1.serial ≤ e.1.serial) = before ++ [e] := by
  obtain ⟨early, -, apart⟩ := List.pairwise_append.1 ascending
  obtain ⟨-, -, below⟩ := List.pairwise_append.1 early
  have last : e ∈ before ++ [e] := List.mem_append_right _ (List.mem_singleton_self e)
  rw [List.filter_append, List.filter_eq_self.2, List.filter_eq_nil_iff.2, List.append_nil]
  · intro x mem
    have := apart e last x mem
    simp only [decide_eq_true_eq]
    omega
  · intro x mem
    rcases List.mem_append.1 mem with mem | mem
    · have := below x mem e (List.mem_singleton_self e)
      simp only [decide_eq_true_eq]
      omega
    · rw [List.mem_singleton.1 mem]
      simp

theorem ascending_subscribersOf (h : Hub V H R) (i : Nat) (signal : SignalId) :
    (h.subscribersOf i signal).Pairwise fun a b => a.1.serial < b.1.serial := by
  unfold subscribersOf
  split
  · exact Subscribers.ascending _
  · exact .nil

variable [SignalValue V]

/-- **A delivery that is under way has come about by its worker's steps.** -/
theorem comesFrom_of_run {start h : Hub V H R} {labels : List (HubLabel V H R)} {es : List (HubEffect V H)}
    (unbegun : ∀ w, start.pool.current? w = none) (ran : run Hub.step labels start = some (h, es)) {w : Nat}
    {d : Delivery V H} (doing : h.pool.current? w = some d) :
    ∃ early t during called, trail Hub.step labels start = early ++ t :: during ∧ d.ComesFrom w t during called := by
  refine run_remembers (P := fun past s => ∀ w d, s.pool.current? w = some d →
    ∃ early t during called, past = early ++ t :: during ∧ d.ComesFrom w t during called) ?_ ran [] ?_ w d doing
  · intro past s l r known made w d doing
    have delivers := (transition_of_step made).delivers doing
    obtain ⟨state, effects, answer⟩ := r
    cases delivers with
    | same was other =>
      obtain ⟨early, t, during, called, rfl, comes⟩ := known w d was
      refine ⟨early, t, during ++ [⟨s, l, _⟩], called, List.append_assoc .., { comes with calls := ?_ }⟩
      rw [callsBy_append, callsBy_singleton other, List.append_nil, comes.calls]
    | taken head => exact ⟨past, _, [], [], rfl, rfl, ⟨_, _, head, rfl⟩, rfl, nofun⟩
    | @called signal value token handler rest was =>
      obtain ⟨early, t, during, called, rfl, comes⟩ := known w _ was
      obtain ⟨i, waits, head, everyone⟩ := comes.job
      refine ⟨early, t, during ++ [⟨s, _, _⟩], called ++ [(token, handler)], List.append_assoc .., comes.taken,
        ⟨i, waits, head, ?_⟩, ?_, ?_⟩
      · rw [everyone, List.append_assoc]
        rfl
      · rw [callsBy_append, comes.calls, Delivery.callsFor, Delivery.callsFor, List.map_append]
        simp [callsBy]
      · rintro e ⟨⟩
        exact ⟨called, rfl⟩
    | returned was =>
      obtain ⟨early, t, during, called, rfl, comes⟩ := known w _ was
      refine ⟨early, t, during ++ [⟨s, _, _⟩], called, List.append_assoc .., comes.taken, comes.job, ?_, nofun⟩
      rw [callsBy_append, callsBy_singleton, List.append_nil, comes.calls]
      · rfl
      · rintro ⟨⟩
  · intro w d doing
    cases (unbegun w).symm.trans doing

/-- **What a panic that is not caught does.** A worker's call panics in a step `m` of a history, with the steps `first`
before it, the steps `after` it, and the hub `h` in the end. -/
structure EndsWorker (w : Nat) (first : List (Moment (Hub V H R) (HubLabel V H R) (HubEffect V H)))
    (m : Moment (Hub V H R) (HubLabel V H R) (HubEffect V H))
    (after : List (Moment (Hub V H R) (HubLabel V H R) (HubEffect V H))) (h : Hub V H R) : Prop where
  /-- The worker has ended, and makes no more steps. -/
  ended : ∀ m' ∈ after, m'.before.HasEnded w ∧ m'.label.worker? ≠ some w
  /-- That is so for good. -/
  forGood : h.HasEnded w
  /-- The worker had begun a delivery, and of those who were subscribed then it has called the ones up to the one whose
  call panics. -/
  calls : ∃ early t during i rest d e, first = early ++ t :: during ∧ t.label = .move (.take w) ∧
    t.before.pool.queue w = .job d.signal ⟨i, d.value⟩ :: rest ∧ m.before.pool.current? w = some d ∧
    d.calling = some e ∧ e ∈ t.before.subscribersOf i d.signal ∧
    callsBy w (during ++ m :: after) = d.callsFor ((t.before.subscribersOf i d.signal).filter (·.1.serial ≤ e.1.serial))

/-- A call that panics is one that is being made. -/
theorem current_of_panic {h : Hub V H R} {l : HubLabel V H R} {r : Result V H R} (made : h.step l = some r) {w : Nat}
    (panics : l.panic? = some w) : ∃ d e, h.pool.current? w = some d ∧ d.calling = some e := by
  unfold HubLabel.panic? at panics
  split at panics
  · cases panics
    simp only [step, act, callReturned] at made
    split at made
    · rename_i signal value rest token handler doing
      exact ⟨_, (token, handler), doing, rfl⟩
    · cases made
  · cases panics

/-- **A panic that is not caught ends its worker**, in the middle of a delivery. -/
theorem endsWorker_of_run {settings : Settings} {plans : List (FeedPlan V)} {start h : Hub V H R}
    {labels : List (HubLabel V H R)} {es : List (HubEffect V H)} (assembled : assemble settings plans = .ok start)
    (uncaught : settings.catches = false) (ran : run Hub.step labels start = some (h, es)) {w : Nat}
    {first after : List (Moment (Hub V H R) (HubLabel V H R) (HubEffect V H))}
    {m : Moment (Hub V H R) (HubLabel V H R) (HubEffect V H)} (split : trail Hub.step labels start = first ++ m :: after)
    (panics : m.label.panic? = some w) : EndsWorker w first m after h := by
  obtain ⟨before, rest, es₁, es₂, -, ran₁, rfl, made, ran₂, rfl⟩ := split_of_trail ran split
  have orderly := isOrderly_of_run (Reachable.assembled assembled).pool_isOrderly ran₁
  have uncaught : m.before.pool.catches = false :=
    run_keeps (P := fun s => s.pool.catches = false)
      (fun _ _ _ _ uncaught made => (transition_of_step made).staff.2.trans uncaught) ran₁
      ((Reachable.assembled assembled).staffed.catches.trans uncaught)
  have t := transition_of_step made
  have returns : m.label ≠ .move (.call w) := by
    intro eq
    rw [eq] at panics
    cases panics
  obtain ⟨ended, forGood⟩ := (t.hasEnded_of_panic orderly uncaught panics).of_run (t.isOrderly orderly) ran₂
  refine ⟨ended, forGood, ?_⟩
  obtain ⟨d, e, doing, calling⟩ := current_of_panic made panics
  obtain ⟨-, rfl⟩ := eq_of_assemble assembled
  obtain ⟨early, s, during, called, past, comes⟩ := comesFrom_of_run (fun w => WorkerPool.current?_ofSize _ _ w) ran₁ doing
  obtain ⟨i, waits, head, everyone⟩ := comes.job
  obtain ⟨others, rfl⟩ := comes.last e calling
  refine ⟨early, s, during, i, waits, d, e, past, comes.taken, head, doing, calling, ?_, ?_⟩
  · rw [everyone]
    simp
  · have ascending := ascending_subscribersOf s.before i d.signal
    rw [everyone] at ascending ⊢
    have later : callsBy w (trail Hub.step rest m.after.state) = [] := callsBy_eq_nil fun m' mem => (ended m' mem).2
    have nobody : callsBy w ([m] ++ trail Hub.step rest m.after.state) = [] := by
      rw [callsBy_append, callsBy_singleton returns, later, List.append_nil]
    rw [filter_le_eq ascending, callsBy_append, comes.calls]
    exact (congrArg _ nobody).trans (List.append_nil _)

/-! ### Flushes -/

/-- How many steps of the workers and of a flush there are at most before the flush can be resolved. -/
def flushWork (h : Hub V H R) (number : Nat) : Nat :=
  h.work + 2 * ((h.pool.flush? number).map fun f => h.pool.size - f.next).getD 0

section Flushes

variable {h k : Hub V H R} {l : HubLabel V H R} {r : Result V H R} {number : Nat} {f : Flush}

/-- Each step of a worker is one less, whether or not it ends the worker. -/
theorem Transition.work_lt (t : h.Transition l r) (works : l.IsWork) : r.state.work < h.work := by
  by_cases goesOn : h.pool.catches = true ∨ l.panic? = none
  · have one := (t.work_eq works goesOn).1
    omega
  · cases t with
    | feed serves => cases serves <;> exact works.elim
    | @returned w panicked signal value rest token handler doing caught =>
      cases panicked with
      | false => exact absurd (.inr rfl) goesOn
      | true => exact absurd (.inl (caught rfl)) goesOn
    | @collapsed w d doing =>
      have idle : Hub.workAt { h with pool := h.pool.collapse w } w = 0 := by
        simp [workAt, WorkerPool.queue_collapse, WorkerPool.current?_collapse]
      have busy : 0 < h.workAt w := by
        refine Nat.pos_of_ne_zero fun none => ?_
        cases (idle_of_workAt none).2.symm.trans doing
      have less := work_eq_of_at (h := h) (p := h.pool.collapse w) (n := h.workAt w) (WorkerPool.size_collapse ..)
        (WorkerPool.lt_of_current? doing) (fun v ne => by rw [WorkerPool.queue_collapse, if_neg ne])
        (fun v ne => by rw [WorkerPool.current?_collapse, if_neg ne]) (by rw [idle, Nat.zero_add])
      change Hub.work { h with pool := h.pool.collapse w } < h.work
      omega
    | _ => exact absurd (.inr rfl) goesOn

/-- What a worker does is nothing to how far a flush has come with its markers. -/
theorem Transition.next_of_work (t : h.Transition l r) (works : l.IsWork) (number : Nat) :
    (r.state.pool.flush? number).map (·.next) = (h.pool.flush? number).map (·.next) := by
  have of_map : ∀ {p : WorkerPool (Notice V) (Delivery V H)} {g : Flush → Flush}, (∀ f, (g f).number = f.number) →
      (∀ f, (g f).next = f.next) → p.flushes = h.pool.flushes.map g →
      (p.flush? number).map (·.next) = (h.pool.flush? number).map (·.next) := by
    intro p g numbers nexts flushes
    rw [WorkerPool.flush?_of_map numbers flushes, Option.map_map]
    exact congrArg (Option.map · _) (funext nexts)
  cases t with
  | feed serves => cases serves <;> exact works.elim
  | take taken =>
    obtain ⟨-, parcel, rest, -, flushes⟩ := WorkerPool.flushes_of_take taken
    cases parcel with
    | job => exact of_map (g := id) (fun _ => rfl) (fun _ => rfl) (flushes.trans (List.map_id _).symm)
    | marker => exact of_map (fun f => by split <;> rfl) (fun f => by split <;> rfl) flushes
  | @collapsed w =>
    exact of_map (g := fun f => { f with awaited := f.awaited.filter (· ≠ w) }) (fun _ => rfl) (fun _ => rfl) rfl
  | call | returned | finish => rfl
  | _ => exact works.elim

omit [SignalValue V] in
/-- Sending a marker is one step less for the flush, and at most one more for the workers. -/
theorem work_of_marksNext {p : WorkerPool (Notice V) (Delivery V H)} (next : h.pool.MarksNext f p) :
    Hub.work { h with pool := p } ≤ h.work + 1 := by
  let sent : Nat := if h.pool.isServing f.next = true then 1 else 0
  have more := work_eq_of_at (h := { h with pool := p }) (p := h.pool) (w := f.next) (n := sent)
    next.marks.alike.size.symm (next.marks.alike.size.symm ▸ next.there) (fun v ne => ?_)
    (fun v _ => (next.marks.current v).symm) ?_
  · have small : sent ≤ 1 := by
      simp only [sent]
      split <;> omega
    change h.work + sent = Hub.work { h with pool := p } at more
    omega
  · change h.pool.queue v = p.queue v
    rw [next.queue, if_neg fun both => ne both.1, List.append_nil]
  · change h.workAt f.next + sent = Hub.workAt { h with pool := p } f.next
    have same : Hub.workFor { h with pool := p } = h.workFor := rfl
    simp only [workAt, next.queue, next.marks.current, same, sent]
    cases h.pool.isServing f.next with
    | false => simp
    | true =>
      simp [workFor]
      omega

/-- The steps by which a flush comes to its end: those of the workers, and the sending of its markers. -/
def Furthers (number : Nat) (l : HubLabel V H R) : Prop := l.IsWork ∨ l = .move (.mark number)

/-- **Each step towards the end of a flush is one less.** -/
theorem Transition.flushWork_lt (t : h.Transition l r) (furthers : Furthers number l)
    (known : h.pool.flush? number = some f) :
    r.state.flushWork number < h.flushWork number ∧ ∃ g, r.state.pool.flush? number = some g := by
  have size := t.staff.1
  rcases furthers with works | rfl
  · have less := t.work_lt works
    have same := t.next_of_work works number
    rw [known, Option.map_some] at same
    obtain ⟨g, known', next⟩ := Option.map_eq_some_iff.1 same
    refine ⟨?_, g, known'⟩
    simp only [flushWork, known, known', Option.map_some, Option.getD_some, size, next]
    omega
  · cases t with
    | feed serves => cases serves
    | @mark _ p marked =>
      obtain ⟨f', known', next⟩ := WorkerPool.marksNext_of_mark marked
      obtain rfl := Option.some.inj (known.symm.trans known')
      have less := work_of_marksNext next
      have after := WorkerPool.flush?_of_map (fun g => by split <;> rfl) next.flushes number
      rw [known, Option.map_some, if_pos rfl] at after
      refine ⟨?_, _, after⟩
      have there := next.there
      simp only [flushWork, known, after, Option.map_some, Option.getD_some]
      change p.size = h.pool.size at size
      omega

/-- **A flush is over in the end**, whatever calls panic: there are only so many steps before it is. -/
theorem flushWork_of_run {labels : List (HubLabel V H R)} {es : List (HubEffect V H)}
    (further : ∀ l ∈ labels, Furthers number l) (known : h.pool.flush? number = some f)
    (ran : run Hub.step labels h = some (k, es)) :
    labels.length + k.flushWork number ≤ h.flushWork number ∧ ∃ g, k.pool.flush? number = some g := by
  induction labels generalizing h es f with
  | nil =>
    cases ran
    exact ⟨Nat.le_of_eq (Nat.zero_add _), f, known⟩
  | cons l rest ih =>
    obtain ⟨r, later, made, onward, rfl⟩ := run_cons.1 ran
    obtain ⟨furthers, further⟩ := List.forall_mem_cons.1 further
    obtain ⟨less, g, known'⟩ := (transition_of_step made).flushWork_lt furthers known
    obtain ⟨more, last⟩ := ih further known' onward
    refine ⟨?_, last⟩
    rw [List.length_cons]
    omega

/-- **A flush can go on or be resolved**, whichever workers have ended. -/
theorem flush_goes_on (orderly : h.pool.IsOrderly) (known : h.pool.flush? number = some f) :
    (∃ r, h.step (.move (.resolve number)) = some r ∧ r.state.pool.flush? number = none) ∨
      ∃ l r, Furthers number l ∧ h.step l = some r := by
  obtain ⟨marks, resolves⟩ := orderly.flush_goes_on known
  obtain ⟨mem, rfl⟩ := WorkerPool.flush?_eq_some known
  by_cases there : f.next < h.pool.size
  · obtain ⟨p, marked⟩ := marks there
    exact .inr ⟨_, { state := { h with pool := p } }, .inr rfl, by simp [step, act, marked, quietly]⟩
  have everywhere : f.next = h.pool.size := Nat.le_antisymm (orderly.sent f mem) (Nat.le_of_not_lt there)
  by_cases queued : ∃ w, .marker f.number ∈ h.pool.queue w
  · obtain ⟨w, waits⟩ := queued
    have busy : h.workAt w ≠ 0 := by
      intro idle
      rw [(idle_of_workAt idle).1] at waits
      cases waits
    obtain ⟨l, r, by', -, made⟩ := exists_work_step_at (orderly.serving_of_queue waits) busy
    exact .inr ⟨l, r, .inl (HubLabel.isWork_of_worker? by'), made⟩
  · obtain ⟨p, resolved⟩ := resolves everywhere fun w waits => queued ⟨w, waits⟩
    refine .inl ⟨{ state := { h with pool := p } }, by simp [step, act, resolved, quietly], ?_⟩
    obtain ⟨-, rfl⟩ := WorkerPool.resolve_eq_some resolved
    simp [WorkerPool.flush?]

end Flushes

end Hub

end LazyHub
