import LazyHub.Proofs.Delivery.Account
import LazyHub.Settings
import Mathlib.Data.List.Infix

/-!
# Jobs in order, each of them once

A flush puts a marker behind what was posted before it started, so when all its markers are taken up the workers are done
with that (`Barrier`), whatever they panicked at and whatever was posted since. Each step of a worker brings it nearer to
being done with all it has before it (`Account.isAhead_of_own`), and it can make a step as long as it has anything to do
(`Account.exists_step`).
-/

namespace LazyHub

namespace WorkerPool

variable {J : Type}

/-! ### What a flush waits for -/

section Barrier

/-- **What was posted before a flush started is in front of its markers**, and a worker whose marker was sent and is no
longer awaited is done with it. -/
structure Barrier (before : Nat → List (SignalId × J)) (number : Nat) (past : History J)
    (p : WorkerPool J (SignalId × J)) : Prop where
  /-- The flush was started. -/
  started : number < p.flushCount
  /-- The jobs are among those that were taken up or are queued, and nothing is in front of them. -/
  among : ∀ w, before w <+: begun w past ++ jobsIn (p.queue w)
  /-- They are in front of the marker. -/
  behind : ∀ w front back, p.queue w = front ++ .marker number :: back → before w <+: begun w past ++ jobsIn front
  /-- They are done when the marker was taken up. -/
  passed : ∀ f ∈ p.flushes, f.number = number → ∀ w < f.next, w ∉ f.awaited → before w <+: done w past

/-- What is in a queue after something is put at its end was there before, or is at the end. -/
theorem of_snoc_eq {queue front back : List (Parcel J)} {last parcel : Parcel J}
    (eq : queue ++ [last] = front ++ parcel :: back) : (∃ back', queue = front ++ parcel :: back') ∨ queue = front := by
  rcases List.eq_nil_or_concat back with rfl | ⟨back', x, rfl⟩
  · exact .inr (List.append_inj' eq rfl).1
  · rw [List.concat_eq_append, ← List.cons_append, ← List.append_assoc] at eq
    exact .inl ⟨back', (List.append_inj' eq rfl).1⟩

variable {workers number : Nat} {before : Nat → List (SignalId × J)} {past : History J} {p : WorkerPool J (SignalId × J)}
  {l : PoolMove J} {r : Stepped (WorkerPool J (SignalId × J)) Entry}

/-- A flush that starts has everything that was posted in front of its markers. -/
theorem Account.barrier (account : Account workers past p) (made : p.step .startFlush = some r) :
    Barrier (fun w => postedTo workers w past) p.flushCount (past ++ [⟨p, .startFlush, r⟩]) r.state := by
  cases made
  have still : ∀ w, begun w (past ++ [⟨p, .startFlush, { state := p.startFlush }⟩]) = begun w past := by
    intro w
    rw [begun_snoc]
    simp [begun?]
  refine ⟨Nat.lt_succ_self _, fun w => ?_, fun w front back eq => ?_, fun f mem same w sent => ?_⟩
  · rw [still, account.queued]
    exact List.prefix_refl _
  · have queued : .marker p.flushCount ∈ p.queue w := by
      change p.queue w = _ at eq
      rw [eq]
      exact List.mem_append_right _ List.mem_cons_self
    exact absurd (account.orderly.started w _ queued) (Nat.lt_irrefl _)
  · rcases List.mem_append.1 mem with old | new
    · have := account.orderly.numbered f old
      omega
    · rw [List.mem_singleton.1 new] at sent
      cases sent

/-- Where the queues are the same and nothing is taken up, what is in front of the markers is the same. -/
theorem Barrier.of_queues (barrier : Barrier before number past p) (count : p.flushCount ≤ r.state.flushCount)
    (queue : ∀ w, r.state.queue w = p.queue w) (still : ∀ w, begun? w ⟨p, l, r⟩ = none)
    (passed : ∀ f ∈ r.state.flushes, f.number = number → ∀ w < f.next, w ∉ f.awaited → before w <+: done w past) :
    Barrier before number (past ++ [⟨p, l, r⟩]) r.state := by
  have same : ∀ w, begun w (past ++ [⟨p, l, r⟩]) = begun w past := by
    intro w
    rw [begun_snoc, still]
    exact List.append_nil _
  refine ⟨Nat.lt_of_lt_of_le barrier.started count, fun w => ?_, fun w front back eq => ?_, fun f mem eq w sent taken => ?_⟩
  · rw [same, queue]
    exact barrier.among w
  · rw [same]
    exact barrier.behind w front back (queue w ▸ eq)
  · exact (passed f mem eq w sent taken).trans (done_stays w past _)

/-- What is put at the end of a queue is in front of no marker that is there. -/
theorem Barrier.of_sent (barrier : Barrier before number past p) (v : Nat) (parcel : Parcel J)
    (count : p.flushCount ≤ r.state.flushCount)
    (queue : ∀ w, r.state.queue w = if w = v then p.queue w ++ [parcel] else p.queue w)
    (still : ∀ w, begun? w ⟨p, l, r⟩ = none)
    (passed : ∀ f ∈ r.state.flushes, f.number = number → ∀ w < f.next, w ∉ f.awaited → before w <+: done w past) :
    Barrier before number (past ++ [⟨p, l, r⟩]) r.state := by
  have same : ∀ w, begun w (past ++ [⟨p, l, r⟩]) = begun w past := by
    intro w
    rw [begun_snoc, still]
    exact List.append_nil _
  refine ⟨Nat.lt_of_lt_of_le barrier.started count, fun w => ?_, fun w front back eq => ?_, fun f mem eq w sent taken => ?_⟩
  · rw [same, queue]
    split
    · rw [jobsIn_append, ← List.append_assoc]
      exact (barrier.among w).trans (List.prefix_append _ _)
    · exact barrier.among w
  · rw [same]
    rw [queue] at eq
    split at eq
    · -- either the marker was there, or it is the one that was sent
      rcases of_snoc_eq eq with ⟨back', eq⟩ | rfl
      · exact barrier.behind w front back' eq
      · exact barrier.among w
    · exact barrier.behind w front back eq
  · exact (passed f mem eq w sent taken).trans (done_stays w past _)

/-- The marker that a flush sends goes behind all that is in the queue, and is awaited. -/
theorem Barrier.of_mark (barrier : Barrier before number past p) (account : Account workers past p) {flush : Nat}
    {q : WorkerPool J (SignalId × J)} (marked : p.mark flush = .some q) :
    Barrier before number (past ++ [⟨p, .mark flush, { state := q }⟩]) q := by
  obtain ⟨f, -, next⟩ := marksNext_of_mark marked
  have serving := account.serving _ (account.size ▸ next.there)
  refine barrier.of_sent (r := { state := q }) f.next (.marker f.number) next.count.ge (fun w => ?_) (fun _ => rfl) ?_
  · change q.queue w = _
    rw [next.queue]
    by_cases here : w = f.next
    · rw [if_pos ⟨here, here ▸ serving⟩, if_pos here]
    · rw [if_neg fun both => here both.1, if_neg here, List.append_nil]
  · change ∀ g ∈ q.flushes, _
    rw [next.flushes]
    intro g mem
    obtain ⟨g, old, rfl⟩ := List.mem_map.1 mem
    by_cases same : g.number = f.number
    · simp only [if_pos same, serving, if_true]
      intro eq w sent awaited
      rw [List.mem_append, List.mem_singleton, not_or] at awaited
      exact barrier.passed g old eq w (by omega) awaited.1
    · simp only [if_neg same]
      exact barrier.passed g old

/-- The jobs that were taken up with those in front, before something is taken up and after it. -/
theorem Took.begun_append {v : Nat} {q : WorkerPool J (SignalId × J)} {parcel : Parcel J} (took : p.Took v parcel q)
    (w : Nat) (front : List (Parcel J)) :
    begun w (past ++ [⟨p, .take v, { state := q }⟩]) ++ jobsIn front =
      begun w past ++ jobsIn (if w = v then parcel :: front else front) := by
  rw [begun_snoc, begun?_take, took.current]
  by_cases here : w = v
  · subst here
    rw [if_pos rfl, if_pos rfl, if_pos rfl, List.append_assoc, ← jobsIn_append]
    rfl
  · rw [if_neg (Ne.symm here), if_neg here, List.append_nil]

/-- A worker takes the first thing in its queue up. -/
theorem Barrier.of_take (barrier : Barrier before number past p) (account : Account workers past p) {v : Nat}
    {q : WorkerPool J (SignalId × J)} (taken : p.take v Prod.mk = .some q) :
    Barrier before number (past ++ [⟨p, .take v, { state := q }⟩]) q := by
  obtain ⟨parcel, took⟩ := took_of_take taken
  refine ⟨took.count ▸ barrier.started, fun w => ?_, fun w front back eq => ?_, ?_⟩
  · rw [took.begun_append, ← took.queue]
    exact barrier.among w
  · rw [took.begun_append]
    refine barrier.behind w _ back ?_
    rw [took.queue, eq]
    split <;> rfl
  · rw [took.flushes]
    cases parcel with
    | job => exact fun f mem eq w sent awaited => (barrier.passed f mem eq w sent awaited).trans (done_stays w past _)
    | marker flush =>
      intro f mem
      obtain ⟨f, old, rfl⟩ := List.mem_map.1 mem
      by_cases counts : f.number = flush
      · simp only [if_pos counts]
        intro eq w sent awaited
        refine List.IsPrefix.trans ?_ (done_stays w past _)
        by_cases here : w = v
        · -- the worker takes up the marker, so it is done with all that was in front of it
          subst here
          have front := barrier.behind w [] (q.queue w) (by rw [took.queue, if_pos rfl, ← counts, eq]; rfl)
          rw [jobsIn_nil, List.append_nil, account.current, took.idle] at front
          simpa using front
        · exact barrier.passed f old eq w sent fun mem => awaited (List.mem_filter.2 ⟨mem, by simpa using here⟩)
      · simp only [if_neg counts]
        exact fun eq w sent awaited => (barrier.passed f old eq w sent awaited).trans (done_stays w past _)

/-- **Every step keeps what was posted before a flush in front of its markers.** -/
theorem Barrier.step (some : 0 < workers) (account : Account workers past p) (barrier : Barrier before number past p)
    (t : p.Transition l r) : Barrier before number (past ++ [⟨p, l, r⟩]) r.state := by
  cases t with
  | post signal job =>
    have there : p.shard signal < workers := account.size ▸ shard_lt (account.size.symm ▸ some) signal
    have serving := account.serving _ there
    refine barrier.of_sent _ _ (flushes_send ..).2.ge (queue_send _ serving) (fun _ => rfl) ?_
    change ∀ f ∈ (p.send (p.shard signal) (.job signal job)).2.flushes, _
    rw [(flushes_send ..).1]
    exact barrier.passed
  | startFlush =>
    refine barrier.of_queues (Nat.le_succ _) (fun _ => rfl) (fun _ => rfl) fun f mem same => ?_
    rcases List.mem_append.1 mem with old | new
    · exact barrier.passed f old same
    · have started := barrier.started
      rw [List.mem_singleton.1 new] at same
      simp only at same
      omega
  | mark marked => exact barrier.of_mark account marked
  | resolve resolved =>
    obtain ⟨-, rfl⟩ := resolve_eq_some resolved
    exact barrier.of_queues (Nat.le_refl _) (fun _ => rfl) (fun _ => rfl)
      fun f mem => barrier.passed f (List.mem_filter.1 mem).1
  | take taken => exact barrier.of_take account taken
  | @finish v x doing panicked survives =>
    exact barrier.of_queues (Nat.le_refl _) (queue_finish doing) (fun _ => rfl) barrier.passed
  | collapse doing uncaught => cases account.catches.symm.trans uncaught

/-- **When a flush is resolved, the workers are done with all that was posted before it started.** -/
theorem Barrier.resolved (some : 0 < workers) (account : Account workers past p) (barrier : Barrier before number past p)
    {labels : List (PoolMove J)} {q : WorkerPool J (SignalId × J)} {es : List Entry}
    (ran : LazyHub.run WorkerPool.step (labels ++ [.resolve number]) p = .some (q, es)) {w : Nat} (there : w < workers) :
    before w <+: done w (past ++ trail WorkerPool.step (labels ++ [.resolve number]) p) := by
  obtain ⟨k, es₁, es₂, first, last, rfl⟩ := run_append.1 ran
  obtain ⟨account, barrier⟩ := run_remembers
    (P := fun past p => Account workers past p ∧ Barrier before number past p)
    (fun both made => ⟨both.1.step some (transition_of_step made), both.2.step some both.1 (transition_of_step made)⟩)
    first past ⟨account, barrier⟩
  obtain ⟨r, _, made, -⟩ := run_cons.1 last
  cases transition_of_step made with
  | resolve resolved =>
    obtain ⟨⟨f, known, everywhere, nobody⟩, -⟩ := resolve_eq_some resolved
    obtain ⟨mem, same⟩ := flush?_eq_some known
    rw [trail_append first, ← List.append_assoc]
    refine (barrier.passed f mem same w ?_ (by simp [nobody])).trans (done_stays w _ _)
    rw [everywhere, account.size]
    exact there

end Barrier

/-! ### What is still to be done -/

end WorkerPool

/-- Whether a step is one of a worker. -/
def PoolMove.isOf {J : Type} (w : Nat) : PoolMove J → Bool
  | .take v => v = w
  | .finish v _ => v = w
  | _ => false

/-- How many steps a worker makes for a parcel: it takes up a job and is done with it, and it takes up a marker. -/
def Parcel.steps {J : Type} : Parcel J → Nat
  | .job .. => 2
  | .marker _ => 1

namespace WorkerPool

/-- How many steps a worker has before it. -/
def toDo (p : WorkerPool J (SignalId × J)) (w : Nat) : Nat :=
  ((p.queue w).map Parcel.steps).sum + (p.current? w).toList.length

section Progress

variable {workers : Nat} {past : History J} {p q : WorkerPool J (SignalId × J)} {l : PoolMove J} {w : Nat}
  {r : Stepped (WorkerPool J (SignalId × J)) Entry}

/-- **A worker that has something to do can go on.** -/
theorem Account.exists_step (account : Account workers past p) (there : w < workers) (busy : p.toDo w ≠ 0) :
    ∃ l r, PoolMove.isOf w l = true ∧ p.step l = some r := by
  cases doing : p.current? w with
  | some x =>
    refine ⟨.finish w false, { state := p.finish w }, by simp [PoolMove.isOf], ?_⟩
    simp [WorkerPool.step, doing]
  | none =>
    have waits : p.queue w ≠ [] := by
      intro nothing
      simp [toDo, nothing, doing] at busy
    obtain ⟨q, taken⟩ := exists_take Prod.mk (account.serving w there) doing waits
    exact ⟨.take w, { state := q }, by simp [PoolMove.isOf], by simp [WorkerPool.step, taken]⟩

/-- What others do adds to the end of a worker's queue, and does not touch what it is doing. -/
theorem Transition.elsewhere (t : p.Transition l r) (catches : p.catches = true) (other : l.isOf w = false) :
    (∃ more, r.state.queue w = p.queue w ++ more) ∧ r.state.current? w = p.current? w ∧ begun? w ⟨p, l, r⟩ = none := by
  cases t with
  | post signal job =>
    refine ⟨?_, current?_send .., rfl⟩
    change ∃ more, (p.send (p.shard signal) (.job signal job)).2.queue w = _
    cases serving : p.isServing (p.shard signal) with
    | false =>
      rw [send_of_ended _ serving]
      exact ⟨[], (List.append_nil _).symm⟩
    | true =>
      rw [queue_send _ serving]
      split
      · exact ⟨_, rfl⟩
      · exact ⟨[], (List.append_nil _).symm⟩
  | startFlush => exact ⟨⟨[], (List.append_nil _).symm⟩, rfl, rfl⟩
  | mark marked =>
    obtain ⟨f, -, next⟩ := marksNext_of_mark marked
    exact ⟨⟨_, next.queue w⟩, next.marks.current w, rfl⟩
  | resolve resolved =>
    obtain ⟨-, rfl⟩ := resolve_eq_some resolved
    exact ⟨⟨[], (List.append_nil _).symm⟩, rfl, rfl⟩
  | @take v q taken =>
    have ne : v ≠ w := by simpa [PoolMove.isOf] using other
    obtain ⟨alike, takes⟩ := takes_of_take taken
    refine ⟨⟨[], ?_⟩, ?_, by simp [begun?, ne]⟩
    · cases takes with
      | job _ _ _ _ _ queue _ => rw [queue, if_neg (Ne.symm ne), List.append_nil]
      | marker _ _ _ queue _ => rw [queue, if_neg (Ne.symm ne), List.append_nil]
    · cases takes with
      | job _ _ _ _ _ _ current => rw [current, if_neg (Ne.symm ne)]
      | marker _ _ _ _ current => rw [current]
  | @finish v x doing panicked survives =>
    have ne : v ≠ w := by simpa [PoolMove.isOf] using other
    refine ⟨⟨[], ?_⟩, ?_, rfl⟩
    · rw [queue_finish doing, List.append_nil]
    · rw [current?_finish doing, if_neg (Ne.symm ne)]
  | collapse doing uncaught => cases catches.symm.trans uncaught

/-- **Some jobs are among those that a worker is done with once it has made so many steps**: it has begun with them, or they
are at the front of its queue. -/
def IsAhead (goal : List (SignalId × J)) (w steps : Nat) (past : History J) (p : WorkerPool J (SignalId × J)) : Prop :=
  ∃ front back, p.queue w = front ++ back ∧ goal <+: begun w past ++ jobsIn front ∧
    (front.map Parcel.steps).sum + (p.current? w).toList.length ≤ steps

variable {goal : List (SignalId × J)} {steps : Nat}

theorem Account.done_of_isAhead (account : Account workers past p) (ahead : IsAhead goal w 0 past p) :
    goal <+: done w past := by
  obtain ⟨front, back, -, inFront, enough⟩ := ahead
  obtain ⟨none, idle⟩ : (front.map Parcel.steps).sum = 0 ∧ (p.current? w).toList.length = 0 := by omega
  have nothing : front = [] := by
    cases front with
    | nil => rfl
    | cons parcel rest => cases parcel <;> simp [Parcel.steps] at none
  rw [nothing, jobsIn_nil, List.append_nil, account.current, List.length_eq_zero_iff.1 idle, List.append_nil] at inFront
  exact inFront

/-- What others do leaves what is ahead of a worker as it is. -/
theorem Transition.isAhead (t : p.Transition l r) (catches : p.catches = true) (other : l.isOf w = false)
    (ahead : IsAhead goal w steps past p) : IsAhead goal w steps (past ++ [⟨p, l, r⟩]) r.state := by
  obtain ⟨front, back, queue, inFront, enough⟩ := ahead
  obtain ⟨⟨more, grown⟩, current, still⟩ := t.elsewhere catches other
  refine ⟨front, back ++ more, by rw [grown, queue, List.append_assoc], ?_, current ▸ enough⟩
  rw [begun_snoc, still]
  simpa using inFront

/-- **Each step of a worker brings it nearer to being done** with what is at the front of its queue. -/
theorem Account.isAhead_of_own (account : Account workers past p) (t : p.Transition l r) (own : l.isOf w = true)
    (ahead : IsAhead goal w steps past p) :
    goal <+: done w past ∨ IsAhead goal w (steps - 1) (past ++ [⟨p, l, r⟩]) r.state := by
  obtain ⟨front, back, queue, inFront, enough⟩ := ahead
  cases t with
  | post | startFlush | mark | resolve => cases own
  | @take v q' taken =>
    obtain rfl : v = w := by simpa [PoolMove.isOf] using own
    obtain ⟨parcel, took⟩ := took_of_take taken
    cases front with
    | nil =>
      -- all of it was done before
      rw [jobsIn_nil, List.append_nil, account.current, took.idle, Option.toList_none, List.append_nil] at inFront
      exact .inl inFront
    | cons first front =>
      have head := took.queue v
      rw [if_pos rfl, queue, List.cons_append] at head
      obtain ⟨rfl, rest⟩ := List.cons.inj head
      refine .inr ⟨front, back, rest.symm, ?_, ?_⟩
      · rw [took.begun_append, if_pos rfl]
        exact inFront
      · have now := took.current v
        rw [if_pos rfl] at now
        rw [now]
        cases first <;> simp [Parcel.steps, took.idle] at enough ⊢ <;> omega
  | @finish v x doing panicked survives =>
    obtain rfl : v = w := by simpa [PoolMove.isOf] using own
    refine .inr ⟨front, back, (queue_finish doing v).trans queue, ?_, ?_⟩
    · rw [begun_snoc]
      simpa [begun?] using inFront
    · change _ + ((p.finish v).current? v).toList.length ≤ _
      rw [current?_finish doing, if_pos rfl]
      rw [doing] at enough
      simp at enough ⊢
      omega
  | collapse doing uncaught => cases account.catches.symm.trans uncaught

/-- **A worker that makes enough steps is done** with what was at the front of its queue, whatever else happens. -/
theorem Account.done_of_steps (some : 0 < workers) {labels : List (PoolMove J)} {es : List Entry}
    (account : Account workers past p) (ahead : IsAhead goal w steps past p)
    (enough : steps ≤ labels.countP (PoolMove.isOf w)) (ran : LazyHub.run WorkerPool.step labels p = .some (q, es)) :
    goal <+: done w (past ++ trail WorkerPool.step labels p) := by
  induction labels generalizing past p steps es with
  | nil =>
    rw [List.countP_nil, Nat.le_zero] at enough
    subst enough
    exact (account.done_of_isAhead ahead).trans (done_stays w past _)
  | cons l labels ih =>
    obtain ⟨r, later, made, onward, rfl⟩ := run_cons.1 ran
    have t := transition_of_step made
    have account' := account.step some t
    rw [List.countP_cons] at enough
    rw [trail_cons made, ← List.singleton_append, ← List.append_assoc]
    cases own : l.isOf w with
    | false =>
      rw [own, if_neg Bool.false_ne_true, Nat.add_zero] at enough
      exact ih account' (t.isAhead account.catches own ahead) enough onward
    | true =>
      rw [own, if_pos rfl] at enough
      rcases account.isAhead_of_own t own ahead with already | ahead'
      · rw [List.append_assoc]
        exact already.trans (done_stays w past _)
      · exact ih account' ahead' (by omega) onward

end Progress

/-! ### The whole account -/

/-- **Jobs are done in order, each of them once.** Whatever number of workers is asked for, if panics are caught, and
in whatever order clients and jobs post, workers go on, and flushes start, send their markers and are resolved:

* a signal's jobs all go to one worker, which exists and serves its queue;
* posting puts the job at the end of that queue, and neither begins nor ends any job;
* what was posted to a worker is what it is done with, the job it is doing, and what is queued, in this order; so it is
  for each signal;
* a worker with anything to do can go on, and when it has made so many steps as there were to do, whatever was posted
  meanwhile, it is done with what had been posted to it;
* when a flush is resolved the workers are done with all that was posted before it started. -/
theorem jobs_done_in_order {settings : Settings} (catches : settings.catches = true) {labels : List (PoolMove J)}
    {p : WorkerPool J (SignalId × J)} {es : List Entry}
    (ran : run step labels (ofSize settings.workerCount settings.catches) = some (p, es)) :
    let n := settings.workerCount
    let past := trail step labels (ofSize n settings.catches)
    (∀ signal, p.shard signal = signal.index % n ∧ p.isServing (p.shard signal) = true) ∧
    (∀ signal job, ∃ q, p.step (.post signal job) = some { state := q } ∧ (∀ w, q.current? w = p.current? w) ∧
      ∀ w, q.queue w = if w = p.shard signal then p.queue w ++ [.job signal job] else p.queue w) ∧
    (∀ w, postedTo n w past = done w past ++ (p.current? w).toList ++ jobsIn (p.queue w)) ∧
    (∀ signal, (posted past).filter (·.1 = signal) =
      (done (p.shard signal) past ++ (p.current? (p.shard signal)).toList ++ jobsIn (p.queue (p.shard signal))).filter
        (·.1 = signal)) ∧
    (∀ w < n, p.toDo w ≠ 0 → ∃ l r, PoolMove.isOf w l = true ∧ p.step l = some r) ∧
    (∀ w more q es', run step more p = some (q, es') → p.toDo w ≤ more.countP (PoolMove.isOf w) →
      postedTo n w past <+: done w (past ++ trail step more p)) ∧
    ∀ first rest k es', run step first (ofSize n settings.catches) = some (k, es') →
      labels = first ++ .startFlush :: rest ++ [.resolve k.flushCount] →
      ∀ w < n, postedTo n w (trail step first (ofSize n settings.catches)) <+: done w past := by
  intro n past
  have positive : 0 < n := Nat.lt_of_lt_of_le Nat.one_pos (Nat.le_max_right ..)
  have start : Account n [] (ofSize n settings.catches : WorkerPool J (SignalId × J)) := by
    rw [catches]
    exact account_ofSize n
  have account : Account n past p := start.run positive ran
  have shard : ∀ signal, p.shard signal = signal.index % n := fun signal => by rw [WorkerPool.shard, account.size]
  have serving : ∀ signal, p.isServing (p.shard signal) = true := by
    intro signal
    rw [shard]
    exact account.serving _ (Nat.mod_lt _ positive)
  have whole : ∀ w, postedTo n w past = done w past ++ (p.current? w).toList ++ jobsIn (p.queue w) := by
    intro w
    rw [account.queued, account.current]
  refine ⟨fun signal => ⟨shard signal, serving signal⟩, fun signal job => ?_, whole, fun signal => ?_, ?_, ?_, ?_⟩
  · refine ⟨(p.post signal job).2, ?_, current?_send p _ _, queue_send _ (serving signal)⟩
    simp [step, post, send_eq _ (serving signal)]
  · rw [← whole, postedTo, List.filter_filter]
    refine List.filter_congr fun x _ => ?_
    rw [Bool.eq_iff_iff]
    simp only [decide_eq_true_eq, Bool.and_eq_true]
    constructor
    · rintro rfl
      exact ⟨rfl, (shard x.1).symm⟩
    · exact And.left
  · intro w there busy
    exact account.exists_step there busy
  · intro w more q es' onward enough
    have ahead : IsAhead (postedTo n w past) w (p.toDo w) past p := by
      refine ⟨p.queue w, [], (List.append_nil _).symm, ?_, Nat.le_refl _⟩
      rw [account.queued]
    exact account.done_of_steps positive ahead enough onward
  · intro first rest k es' before eq w there
    have early := start.run positive before
    rw [eq, List.append_assoc] at ran
    obtain ⟨k', _, _, before', later, -⟩ := run_append.1 ran
    obtain ⟨rfl, -⟩ := Prod.mk.inj (Option.some.inj (before.symm.trans before'))
    obtain ⟨r, es'', made, onward, -⟩ := run_cons.1 later
    have held := (early.barrier made).resolved positive (early.step positive (transition_of_step made)) onward there
    have history : past = trail step first (ofSize n settings.catches) ++ [⟨k, .startFlush, r⟩] ++
        trail step (rest ++ [.resolve k.flushCount]) r.state := by
      change trail step labels _ = _
      rw [eq, List.append_assoc, trail_append before, List.cons_append, trail_cons made, List.append_assoc]
      rfl
    rw [history]
    exact held

/-- A job for signal 3 panics, and posts another before it does; a flush that started in between waits for the first and
not for the second, and not for the job for signal 4 that came after it. -/
theorem flush_waits_for_earlier_job :
    let labels : List (PoolMove Nat) := [.post ⟨3⟩ 10] ++ .startFlush ::
      [.mark 0, .post ⟨4⟩ 20, .take 0, .post ⟨3⟩ 11, .finish 0 true, .take 0] ++ [.resolve 0]
    ∃ p es, run step labels (ofSize ({ workers := 0 } : Settings).workerCount true) = some (p, es) ∧
      es = [.deliveryPanicked ⟨3⟩] ∧ p.queue 0 = [.job ⟨4⟩ 20, .job ⟨3⟩ 11] ∧
      done 0 (trail step labels (ofSize 1 true)) = [(⟨3⟩, 10)] ∧
      postedTo 1 0 (trail step [.post ⟨3⟩ 10] (ofSize 1 true)) <+: done 0 (trail step labels (ofSize 1 true)) := by
  intro labels
  obtain ⟨p, es, ran, said, left⟩ : ∃ p es,
      run step labels (ofSize ({ workers := 0 } : Settings).workerCount true) = some (p, es) ∧
        es = [.deliveryPanicked ⟨3⟩] ∧ p.queue 0 = [.job ⟨4⟩ 20, .job ⟨3⟩ 11] :=
    ⟨_, _, rfl, rfl, rfl⟩
  obtain ⟨-, -, -, -, -, -, flushed⟩ := jobs_done_in_order (show ({ workers := 0 } : Settings).catches = true from rfl) ran
  exact ⟨p, es, ran, said, left, rfl, flushed [.post ⟨3⟩ 10] _ _ _ rfl rfl 0 Nat.one_pos⟩

end WorkerPool

end LazyHub
