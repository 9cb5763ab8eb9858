import LazyHub.Proofs.Delivery.Outliving
import LazyHub.Proofs.Hub.Collapse
import LazyHub.Proofs.Hub.Panics

/-!
# A run beside the one in which nobody panics

A run in which panics end workers is set beside one in which all calls return (`Hub.Spares`). There the workers go on
that have ended here: they call those who were left out, and do the jobs that were dropped, and whoever they call does
nothing but return. All that this changes is what these workers call. Everything else that happens is the same, and so
is the hub in the end, up to what these workers still have to do (`Hub.Spares.agree`). And there is such a run, in which
they have done everything (`Hub.exists_spares`).
-/

namespace LazyHub

variable {V H R : Type}

/-- The note of a notification that is dropped, since its worker has ended. -/
def HubEffect.isDrop : HubEffect V H → Bool
  | .noted (.workerGone _) => true
  | _ => false

/-- What else there is among some effects. -/
def kept (es : List (HubEffect V H)) : List (HubEffect V H) := es.filter (!·.isDrop)

theorem kept_append (xs ys : List (HubEffect V H)) : kept (xs ++ ys) = kept xs ++ kept ys := List.filter_append ..

@[simp] theorem HubLabel.worker?_calm (l : HubLabel V H R) : l.calm.worker? = l.worker? := by
  unfold calm
  split <;> rfl

theorem HubLabel.isOwn_calm {l : HubLabel V H R} (own : l.IsOwn) : l.calm.IsOwn := by
  unfold calm
  split
  · trivial
  · exact own

namespace Hub

/-- The workers that a run's panics end, in order. -/
def panicked (labels : List (HubLabel V H R)) : List Nat := labels.filterMap HubLabel.panic?

theorem panicked_cons (ended : List Nat) (l : HubLabel V H R) (rest : List (HubLabel V H R)) :
    ended ++ panicked (l :: rest) = (ended ++ l.panic?.toList) ++ panicked rest := by
  cases panics : l.panic? <;> simp [panicked, panics]

/-- What happens in the course of a history, but for the steps of some workers and for the notes of what is dropped. -/
def told (ended : List Nat) (past : List (Moment (Hub V H R) (HubLabel V H R) (HubEffect V H))) : List (HubEffect V H) :=
  past.flatMap fun m => if m.label.worker?.any (· ∈ ended) then [] else kept m.after.effects

/-- **A run's word beside one in which all calls return.** Workers `ended` have ended in the run. -/
inductive Spares : List Nat → List (HubLabel V H R) → List (HubLabel V H R) → Prop where
  /-- Nothing happens any more. -/
  | nil {ended : List Nat} : Spares ended [] []
  /-- The same happens, but a call that panics returns. -/
  | same {ended : List Nat} {l : HubLabel V H R} {labels spared : List (HubLabel V H R)}
      (onward : Spares (ended ++ l.panic?.toList) labels spared) : Spares ended (l :: labels) (l.calm :: spared)
  /-- A worker goes on that has ended in the run. -/
  | more {ended : List Nat} {l : HubLabel V H R} {labels spared : List (HubLabel V H R)} {w : Nat} (mem : w ∈ ended)
      (by' : l.worker? = some w) (calm : l.panic? = none) (onward : Spares ended labels spared) :
      Spares ended labels (l :: spared)

/-- The hub with another pool. -/
def withPool (h : Hub V H R) (pool : WorkerPool (Notice V) (Delivery V H)) : Hub V H R := { h with pool }

section Step

variable {h g : Hub V H R} {q : WorkerPool (Notice V) (Delivery V H)} {ended : List Nat} {l : HubLabel V H R} {w : Nat}

/-- What a feed's effect is for a hub whose workers go on. -/
theorem absorb_outlives (o : WorkerPool.Outlives ended h.pool q) (i : Nat) (e : FeedEffect V) :
    ∃ q', ((h.withPool q).absorb i e).1 = (h.absorb i e).1.withPool q' ∧
      WorkerPool.Outlives ended (h.absorb i e).1.pool q' ∧
      kept ((h.withPool q).absorb i e).2 = kept (h.absorb i e).2 := by
  have silent : ∀ (accepted : Bool) (signal : SignalId),
      kept (if accepted then [] else [.noted (.workerGone signal)] : List (HubEffect V H)) = [] := by
    intro accepted signal
    cases accepted <;> rfl
  cases e with
  | owed signal value =>
    exact ⟨(q.post signal ⟨i, value⟩).2, rfl, o.post signal ⟨i, value⟩, (silent ..).trans (silent ..).symm⟩
  | _ => exact ⟨q, rfl, o, rfl⟩

theorem absorbAll_outlives (o : WorkerPool.Outlives ended h.pool q) (i : Nat) (es : List (FeedEffect V)) :
    ∃ q', ((h.withPool q).absorbAll i es).1 = (h.absorbAll i es).1.withPool q' ∧
      WorkerPool.Outlives ended (h.absorbAll i es).1.pool q' ∧
      kept ((h.withPool q).absorbAll i es).2 = kept (h.absorbAll i es).2 := by
  induction es generalizing h q with
  | nil => exact ⟨q, rfl, o, rfl⟩
  | cons e rest ih =>
    obtain ⟨q₁, first, o₁, same⟩ := absorb_outlives o i e
    obtain ⟨q₂, later, o₂, same'⟩ := ih o₁
    refine ⟨q₂, ?_, o₂, ?_⟩
    · change (((h.withPool q).absorb i e).1.absorbAll i rest).1 = _
      rw [first, later]
      rfl
    · change kept (((h.withPool q).absorb i e).2 ++ (((h.withPool q).absorb i e).1.absorbAll i rest).2) =
        kept ((h.absorb i e).2 ++ ((h.absorb i e).1.absorbAll i rest).2)
      rw [kept_append, kept_append, first, same, same']

/-- A label stands for the same step of the same feed. -/
theorem Serves.withPool {i : Nat} {fl : FeedLabel V H R} (s : h.Serves l i fl g) :
    (h.withPool q).Serves l i fl (g.withPool q) := by
  cases s with
  | subscribe drawn named routes => exact .subscribe drawn named routes
  | unsubscribe held routes => exact .unsubscribe held routes
  | refresh held => exact .refresh held
  | shutdown held => exact .shutdown held
  | advance => exact .advance
  | close closing quiet more => exact .close closing quiet more
  | hear => exact .hear
  | invoke => exact .invoke
  | use made => exact .use made

variable [SignalValue V] {r r' : Result V H R}

/-- **What is left behind by a step is the same where workers go on**, up to their queues. -/
structure IsSparedBy (ended : List Nat) (l : HubLabel V H R) (r r' : Result V H R) : Prop where
  /-- Only the pool is another. -/
  state : r'.state = r.state.withPool r'.state.pool
  /-- In it the workers go on that have ended. -/
  pool : WorkerPool.Outlives ended r.state.pool r'.state.pool
  /-- The step does the same outside, up to what is dropped. -/
  effects : kept r'.effects = kept r.effects
  /-- The same subscriber is called. -/
  called : ∀ w, l = .move (.call w) → r'.effects = r.effects

/-- A step of a feed is the same where workers go on. -/
theorem Serves.spare {i : Nat} {fl : FeedLabel V H R} {f : Feed V H R} {fr : Feed.Result V H R} (serves : h.Serves l i fl g)
    (there : h.feeds[i]? = some f) (made : f.step fl = some fr) (o : WorkerPool.Outlives ended h.pool q) :
    ∃ r', (h.withPool q).step l.calm = some r' ∧ IsSparedBy (ended ++ l.panic?.toList) l (g.afterFeed i fr) r' := by
  obtain ⟨calm, panics⟩ : l.calm = l ∧ l.panic? = none := by cases serves <;> exact ⟨rfl, rfl⟩
  obtain ⟨q', state, o', effects⟩ := absorbAll_outlives (h := { g with feeds := g.feeds.set i fr.state })
    (serves.pool_eq ▸ o) i fr.effects
  have silent : ∀ w, l ≠ .move (.call w) := by
    rintro w rfl
    cases serves
  rw [calm, panics, Option.toList_none, List.append_nil]
  have state : ((g.withPool q).afterFeed i fr).state = (g.afterFeed i fr).state.withPool q' := state
  have pool : ((g.withPool q).afterFeed i fr).state.pool = q' := congrArg Hub.pool state
  exact ⟨_, serves.withPool.step there made, pool ▸ state, pool ▸ o', effects, fun w eq => absurd eq (silent w)⟩

/-- **The same step where workers go on.** A call that panics returns, and its worker goes on as well. -/
theorem step_spare (made : h.step l = some r) (uncaught : h.pool.catches = false) (orderly : h.pool.IsOrderly)
    (o : WorkerPool.Outlives ended h.pool q) (orderly' : q.IsOrderly)
    (resolves : ∀ n, l = .move (.resolve n) → ∃ q', q.resolve n = some q') :
    ∃ r', (h.withPool q).step l.calm = some r' ∧ IsSparedBy (ended ++ l.panic?.toList) l r r' := by
  have still : ∀ {l : HubLabel V H R} {r : Result V H R} {q' : WorkerPool (Notice V) (Delivery V H)}, l.panic? = none →
      WorkerPool.Outlives ended r.state.pool q' →
      IsSparedBy (ended ++ l.panic?.toList) l r { r with state := r.state.withPool q' } := by
    intro l r q' calm o'
    rw [calm, Option.toList_none, List.append_nil]
    exact ⟨rfl, o', rfl, fun _ _ => rfl⟩
  have same : ∀ {w : Nat} {d : Delivery V H}, h.pool.current? w = some d → w ∉ ended ∧ q.current? w = some d := by
    intro w d doing
    have other := o.not_mem_of_serving (orderly.serving_of_current doing)
    exact ⟨other, (o.current?_eq other).trans doing⟩
  cases transition_of_step made with
  | feed serves there step => exact serves.spare there step o
  | draw held routes =>
    obtain ⟨n, held⟩ := held
    have held' : (h.withPool q).life = .held n := held
    have routes' : (h.withPool q).route _ = _ := routes
    refine ⟨_, ?_, still rfl o⟩
    simp only [HubLabel.calm, Hub.step, act, routes', held']
    simp [withPool, held]
  | take taken =>
    obtain ⟨q', taken', o'⟩ := o.take taken
    exact ⟨_, congrArg (Option.map fun pool => quietly (h.withPool pool)) taken', still rfl o'⟩
  | call doing =>
    obtain ⟨other, doing'⟩ := same doing
    have doing' : (h.withPool q).pool.current? _ = _ := doing'
    exact ⟨_, by simp only [HubLabel.calm, Hub.step, act, callNext, doing']; rfl, still rfl (o.modifyWorker other _)⟩
  | @returned w panicked _ _ _ _ _ doing caught =>
    cases panicked with
    | true => cases uncaught.symm.trans (caught rfl)
    | false =>
      obtain ⟨other, doing'⟩ := same doing
      have doing' : (h.withPool q).pool.current? _ = _ := doing'
      exact ⟨_, by simp only [HubLabel.calm, Hub.step, act, callReturned, doing']; rfl, still rfl (o.modifyWorker other _)⟩
  | @collapsed w d doing uncaught =>
    obtain ⟨signal, value, waiting, calling⟩ := d
    obtain ⟨other, doing'⟩ := same doing
    have doing' : (h.withPool q).pool.current? _ = _ := doing'
    cases calling with
    | none => simp [Hub.step, act, callReturned, doing] at made
    | some e =>
      have o' := o.collapse (orderly.serving_of_current doing)
        (g := fun x => { x with current := some ⟨signal, value, waiting, none⟩ }) fun _ => rfl
      refine ⟨{ state := h.withPool (q.setCurrent w ⟨signal, value, waiting, none⟩) }, ?_, rfl, o', rfl, fun _ _ => rfl⟩
      simp only [HubLabel.calm, Hub.step, act, callReturned, doing']
      rfl
  | finish doing =>
    obtain ⟨other, doing'⟩ := same doing
    have doing' : (h.withPool q).pool.current? _ = _ := doing'
    exact ⟨_, by simp only [HubLabel.calm, Hub.step, act, doing']; rfl, still rfl (o.modifyWorker other _)⟩
  | @stop w abandoned idle =>
    have other := o.not_mem_of_serving (WorkerPool.isServing_of_isIdle idle)
    have abandoned' : (h.withPool q).isAbandoned = true := abandoned
    have idle' : (h.withPool q).pool.isIdle w = true := (o.isIdle_eq other).trans idle
    refine ⟨_, ?_, still rfl (o.collapseBoth other)⟩
    simp only [HubLabel.calm, Hub.step, act, abandoned', idle', Bool.and_self, if_true]
    rfl
  | startFlush => exact ⟨_, rfl, still rfl o.startFlush⟩
  | mark marked =>
    obtain ⟨q', marked', o'⟩ := o.mark orderly' marked
    have marked' : (h.withPool q).pool.mark _ = _ := marked'
    exact ⟨_, by simp only [HubLabel.calm, Hub.step, act, marked']; rfl, still rfl o'⟩
  | @resolve n p resolved =>
    obtain ⟨q', resolved'⟩ := resolves n rfl
    have o' := o.resolve resolved resolved'
    have resolved' : (h.withPool q).pool.resolve _ = _ := resolved'
    exact ⟨_, by simp only [HubLabel.calm, Hub.step, act, resolved']; rfl, still rfl o'⟩
  | clone held | drop held =>
    have held' : (h.withPool q).life = _ := held
    exact ⟨_, by simp only [HubLabel.calm, Hub.step, act, held']; rfl, still rfl o⟩
  | dropLast held undrawn quiet =>
    have held' : (h.withPool q).life = _ := held
    have undrawn' : (h.withPool q).requests.isEmpty := by simp [withPool, undrawn]
    have quiet' : (h.withPool q).isQuiet := quiet
    exact ⟨_, by simp only [HubLabel.calm, Hub.step, act, held', quiet', undrawn', Bool.and_self, if_true]; rfl, still rfl o⟩
  | @letGo next closing quiet all =>
    have closing' : (h.withPool q).life = _ := closing
    have quiet' : (h.withPool q).isQuiet := quiet
    have all' : ¬ next < (h.withPool q).feeds.length := Nat.not_lt.2 all
    refine ⟨_, ?_, still rfl o⟩
    simp only [HubLabel.calm, Hub.step, act, closing', quiet', all', Bool.not_true, Bool.false_eq_true, if_false]
    rfl

/-- **What a worker does that has ended in the other hub** is nothing to anybody else. -/
theorem step_more (made : (h.withPool q).step l = some r) (o : WorkerPool.Outlives ended h.pool q) (mem : w ∈ ended)
    (by' : l.worker? = some w) (calm : l.panic? = none) :
    r.state = h.withPool r.state.pool ∧ WorkerPool.Outlives ended h.pool r.state.pool := by
  cases transition_of_step made with
  | feed serves => cases serves <;> cases by'
  | take taken =>
    cases by'
    exact ⟨rfl, o.takeEnded mem taken⟩
  | call | returned | finish =>
    cases by'
    exact ⟨rfl, o.modifyEnded mem fun _ => rfl⟩
  | collapsed => cases calm
  | _ => cases by'

end Step

/-! ### Runs -/

section Runs

variable [SignalValue V] {h k : Hub V H R} {q : WorkerPool (Notice V) (Delivery V H)} {ended : List Nat}
  {labels spared : List (HubLabel V H R)} {es es' : List (HubEffect V H)}

/-- **The runs agree**, up to what is left to the workers that have ended in the one. -/
structure Agree (ended : List Nat) (past past' : List (Moment (Hub V H R) (HubLabel V H R) (HubEffect V H)))
    (k k' : Hub V H R) : Prop where
  /-- Only the pools are different. -/
  state : k' = k.withPool k'.pool
  /-- In the other one the workers go on that have ended. -/
  pool : WorkerPool.Outlives ended k.pool k'.pool
  /-- Everything else that happens is the same, in the same order. -/
  told : told ended past = Hub.told ended past'
  /-- The other workers call the same subscribers with the same values. -/
  calls : ∀ w ∉ ended, callsBy w past = callsBy w past'
  /-- Those that end do so up to their end. -/
  beginning : ∀ w, callsBy w past <+: callsBy w past'

section Agree

variable {past past' : List (Moment (Hub V H R) (HubLabel V H R) (HubEffect V H))}
  {m m' : Moment (Hub V H R) (HubLabel V H R) (HubEffect V H)} {k' : Hub V H R}

omit [SignalValue V] in
theorem told_cons (ended : List Nat) (m : Moment (Hub V H R) (HubLabel V H R) (HubEffect V H))
    (past : List (Moment (Hub V H R) (HubLabel V H R) (HubEffect V H))) :
    told ended (m :: past) = told ended [m] ++ told ended past := by
  rw [← List.singleton_append, told, List.flatMap_append]
  rfl

omit [SignalValue V] in
theorem callsBy_cons (w : Nat) (m : Moment (Hub V H R) (HubLabel V H R) (HubEffect V H))
    (past : List (Moment (Hub V H R) (HubLabel V H R) (HubEffect V H))) :
    callsBy w (m :: past) = callsBy w [m] ++ callsBy w past := by
  rw [← List.singleton_append, callsBy_append]

omit [SignalValue V] in
/-- The same happens in both runs. -/
theorem Agree.same (agree : Agree ended past past' k k') (alike : Hub.told ended [m] = Hub.told ended [m'])
    (calls : ∀ w, callsBy w [m] = callsBy w [m']) : Agree ended (m :: past) (m' :: past') k k' where
  state := agree.state
  pool := agree.pool
  told := by rw [told_cons, told_cons ended m', alike, agree.told]
  calls w other := by rw [callsBy_cons, callsBy_cons w m', calls, agree.calls w other]
  beginning w := by
    rw [callsBy_cons, callsBy_cons w m', calls]
    exact (List.prefix_append_right_inj _).2 (agree.beginning w)

omit [SignalValue V] in
/-- A worker goes on in the other run that has ended in the one. -/
theorem Agree.more {w : Nat} (agree : Agree ended past past' k k') (mem : w ∈ ended) (by' : m'.label.worker? = some w)
    (silent : callsBy w past = []) : Agree ended past (m' :: past') k k' := by
  have others : ∀ v ≠ w, callsBy v [m'] = [] := by
    intro v ne
    refine callsBy_singleton fun called => ne ?_
    rw [called] at by'
    exact Option.some.inj by'
  refine ⟨agree.state, agree.pool, ?_, fun v other => ?_, fun v => ?_⟩
  · have untold : Hub.told ended [m'] = [] := by simp [Hub.told, by', mem]
    rw [told_cons, untold, List.nil_append, agree.told]
  · rw [callsBy_cons, others v fun eq => other (eq ▸ mem), List.nil_append, agree.calls v other]
  · by_cases here : v = w
    · rw [here, silent]
      exact List.nil_prefix
    · rw [callsBy_cons, others v here, List.nil_append]
      exact agree.beginning v

omit [SignalValue V] in
theorem IsSparedBy.callsBy_eq {l : HubLabel V H R} {r r' : Result V H R} {h h' : Hub V H R} (spared : IsSparedBy ended l r r')
    (w : Nat) : callsBy w [⟨h, l, r⟩] = callsBy w [⟨h', l.calm, r'⟩] := by
  by_cases called : l = .move (.call w)
  · subst called
    simp [callsBy, HubLabel.calm, spared.called w rfl]
  · have other : l.calm ≠ .move (.call w) := by
      unfold HubLabel.calm
      split
      · simp
      · exact called
    rw [callsBy_singleton called, callsBy_singleton other]

end Agree

/-- **A run and one in which all calls return agree.** -/
theorem Spares.agree (spares : Spares ended labels spared) {k' : Hub V H R} (uncaught : h.pool.catches = false)
    (orderly : h.pool.IsOrderly) (o : WorkerPool.Outlives ended h.pool q) (orderly' : q.IsOrderly)
    (ran : run Hub.step labels h = some (k, es)) (ran' : run Hub.step spared (h.withPool q) = some (k', es')) :
    Agree (ended ++ panicked labels) (trail Hub.step labels h) (trail Hub.step spared (h.withPool q)) k k' := by
  induction spares generalizing h q es es' with
  | nil =>
    cases ran
    cases ran'
    exact ⟨rfl, (List.append_nil _).symm ▸ o, rfl, fun _ _ => rfl, fun _ => List.prefix_rfl⟩
  | @same ended l labels spared onward ih =>
    obtain ⟨r, later, made, onward, rfl⟩ := run_cons.1 ran
    obtain ⟨r', later', made', onward', rfl⟩ := run_cons.1 ran'
    have t := transition_of_step made
    have resolves : ∀ n, l = .move (.resolve n) → ∃ q', q.resolve n = some q' := by
      rintro n rfl
      obtain ⟨q', resolved, -⟩ := Option.map_eq_some_iff.1 made'
      exact ⟨q', resolved⟩
    obtain ⟨r'', made'', spared⟩ := step_spare made uncaught orderly o orderly' resolves
    obtain rfl := Option.some.inj (made'.symm.trans made'')
    have after := (transition_of_step made').isOrderly orderly'
    rw [trail_cons made, trail_cons made', panicked_cons]
    rw [spared.state] at onward' ⊢
    refine (ih (t.staff.2.trans uncaught) (t.isOrderly orderly) spared.pool after onward onward').same ?_ spared.callsBy_eq
    simp [told, spared.effects]
  | @more ended l labels spared w mem by' calm onward ih =>
    obtain ⟨r', later', made', onward', rfl⟩ := run_cons.1 ran'
    obtain ⟨state, o'⟩ := step_more made' o mem by' calm
    have after := (transition_of_step made').isOrderly orderly'
    rw [trail_cons made']
    rw [state] at onward' ⊢
    have ended := (hasEnded_of_isOrderly orderly (o.off w mem)).of_run orderly ran
    exact (ih uncaught orderly o' after ran onward').more (List.mem_append_left _ mem) by'
      (callsBy_eq_nil fun m mem => (ended.1 m mem).2)

/-! ### The workers that go on -/

/-- The steps of workers that have ended in the run. -/
def AreOf (ended : List Nat) (rest : List (HubLabel V H R)) : Prop :=
  ∀ l ∈ rest, ∃ w ∈ ended, l.worker? = some w ∧ l.panic? = none

omit [SignalValue V] in
theorem Spares.prepend {rest : List (HubLabel V H R)} (spares : Spares ended labels spared) (idle : AreOf ended rest) :
    Spares ended labels (rest ++ spared) := by
  induction rest with
  | nil => exact spares
  | cons l rest ih =>
    obtain ⟨⟨w, mem, by', calm⟩, idle⟩ := List.forall_mem_cons.1 idle
    exact .more mem by' calm (ih idle)

omit [SignalValue V] in
theorem Spares.isOwn (spares : Spares ended labels spared) (own : ∀ l ∈ labels, l.IsOwn) : ∀ l ∈ spared, l.IsOwn := by
  induction spares with
  | nil => exact own
  | same onward ih =>
    obtain ⟨first, own⟩ := List.forall_mem_cons.1 own
    exact List.forall_mem_cons.2 ⟨HubLabel.isOwn_calm first, ih own⟩
  | more mem by' calm onward ih =>
    exact List.forall_mem_cons.2 ⟨(HubLabel.isWork_of_worker? by').isOwn, ih own⟩

/-- The workers that go on have nothing to do. -/
def AreDone (ended : List Nat) (q : WorkerPool (Notice V) (Delivery V H)) : Prop :=
  ∀ w ∈ ended, q.queue w = [] ∧ q.current? w = none

/-- **The workers that go on come to rest**, if whoever they call returns at once. -/
theorem exists_rest {n : Nat} (o : WorkerPool.Outlives ended h.pool q) (orderly : q.IsOrderly)
    (left : (h.withPool q).work = n) :
    ∃ rest q' es, AreOf ended rest ∧ run Hub.step rest (h.withPool q) = some (h.withPool q', es) ∧
      WorkerPool.Outlives ended h.pool q' ∧ q'.IsOrderly ∧ AreDone ended q' := by
  induction n using Nat.strong_induction_on generalizing q with
  | _ n ih =>
    by_cases idle : ∀ w ∈ ended, (h.withPool q).workAt w = 0
    · exact ⟨[], q, [], nofun, rfl, o, orderly, fun w mem => idle_of_workAt (idle w mem)⟩
    · push Not at idle
      obtain ⟨w, mem, busy⟩ := idle
      obtain ⟨l, r, by', calm, made⟩ := exists_work_step_at (o.on w mem) busy
      have t := transition_of_step made
      obtain ⟨state, o'⟩ := step_more made o mem by' calm
      obtain ⟨one, -⟩ := t.work_eq (HubLabel.isWork_of_worker? by') (.inr calm)
      rw [state] at one
      obtain ⟨rest, q', es, idle, ran, o'', orderly', done⟩ := ih _ (by omega) o' (t.isOrderly orderly) rfl
      exact ⟨l :: rest, q', _, List.forall_mem_cons.2 ⟨⟨w, mem, by', calm⟩, idle⟩,
        run_cons.2 ⟨r, es, made, state ▸ ran, rfl⟩, o'', orderly', done⟩

/-- **There is a run in which all calls return** beside each run, and in which the workers that go on have done
everything. -/
theorem exists_spares (uncaught : h.pool.catches = false) (orderly : h.pool.IsOrderly)
    (o : WorkerPool.Outlives ended h.pool q) (orderly' : q.IsOrderly) (done : AreDone ended q)
    (ran : run Hub.step labels h = some (k, es)) :
    ∃ spared q' es', Spares ended labels spared ∧ run Hub.step spared (h.withPool q) = some (k.withPool q', es') ∧
      AreDone (ended ++ panicked labels) q' := by
  induction labels generalizing h q ended es with
  | nil =>
    cases ran
    exact ⟨[], q, [], .nil, rfl, (List.append_nil ended).symm ▸ done⟩
  | cons l labels ih =>
    obtain ⟨r, later, made, onward, rfl⟩ := run_cons.1 ran
    have t := transition_of_step made
    have resolves : ∀ n, l = .move (.resolve n) → ∃ q', q.resolve n = some q' := by
      rintro n rfl
      obtain ⟨p, resolved, -⟩ := Option.map_eq_some_iff.1 made
      exact o.exists_resolve orderly' (fun w mem => (done w mem).1) resolved
    obtain ⟨r', made', spared⟩ := step_spare made uncaught orderly o orderly' resolves
    have after := (transition_of_step made').isOrderly orderly'
    obtain ⟨rest, q₁, es₁, idle, ran₁, o₁, orderly₁, done₁⟩ := exists_rest spared.pool after rfl
    obtain ⟨spared', q₂, es₂, spares, ran₂, done₂⟩ :=
      ih (t.staff.2.trans uncaught) (t.isOrderly orderly) o₁ orderly₁ done₁ onward
    have onward' : run Hub.step (rest ++ spared') r'.state = some (k.withPool q₂, es₁ ++ es₂) :=
      spared.state ▸ run_append.2 ⟨_, es₁, es₂, ran₁, ran₂, rfl⟩
    refine ⟨l.calm :: (rest ++ spared'), q₂, _, .same (spares.prepend idle), run_cons.2 ⟨r', _, made', onward', rfl⟩, ?_⟩
    rw [panicked_cons]
    exact done₂

end Runs

end Hub

end LazyHub
