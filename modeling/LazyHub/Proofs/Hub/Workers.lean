import LazyHub.Proofs.Delivery.WorkerPool
import LazyHub.Proofs.Hub.Routing

/-!
# The workers of a hub

What a feed owes its subscribers is posted to the hub's workers (`Posted`). `Hub.Staffed` is the
invariant of the workers: a job waits at the worker that serves its signal, a worker calls only
subscribers of the signal whose value it delivers, and all workers go on serving as long as panics
are caught and the hub has not let go of its feeds.
-/

namespace LazyHub

variable {V H R : Type}

/-- What a subscriber is called with in the course of some effects. -/
def receivedBy (token : Token) (es : List (HubEffect V H)) : List V :=
  es.filterMap fun
    | .called t _ _ value => if t = token then some value else none
    | _ => none

theorem receivedBy_append (token : Token) (xs ys : List (HubEffect V H)) :
    receivedBy token (xs ++ ys) = receivedBy token xs ++ receivedBy token ys := List.filterMap_append

theorem mem_receivedBy {token : Token} {value : V} {es : List (HubEffect V H)} :
    value ∈ receivedBy token es ↔ ∃ handler signal, .called token handler signal value ∈ es := by
  simp only [receivedBy, List.mem_filterMap]
  constructor
  · rintro ⟨e, mem, found⟩
    cases e with
    | called t handler signal v =>
      simp only [Option.ite_none_right_eq_some, Option.some.injEq] at found
      obtain ⟨rfl, rfl⟩ := found
      exact ⟨handler, signal, mem⟩
    | _ => cases found
  · rintro ⟨handler, signal, mem⟩
    exact ⟨_, mem, by simp⟩

theorem mem_owedTo {signal : SignalId} {value : V} {es : List (FeedEffect V)} :
    value ∈ owedTo signal es ↔ .owed signal value ∈ es := by
  simp only [owedTo, List.mem_filterMap]
  constructor
  · rintro ⟨e, mem, eq⟩
    cases e with
    | owed s v =>
      simp only [Option.ite_none_right_eq_some, Option.some.injEq] at eq
      obtain ⟨rfl, rfl⟩ := eq
      exact mem
    | _ => cases eq
  · exact fun mem => ⟨_, mem, by simp⟩

/-- A delivery comes further: it has the same value for the same signal, and as many to call or fewer. -/
structure Delivery.LeadsTo (e d : Delivery V H) : Prop where
  /-- The signal is the same. -/
  signal : e.signal = d.signal
  /-- The value is the same. -/
  value : e.value = d.value
  /-- Some of those to be called may have been called. -/
  waiting : d.waiting <:+ e.waiting

theorem Delivery.LeadsTo.refl (d : Delivery V H) : d.LeadsTo d := ⟨rfl, rfl, List.suffix_refl _⟩

theorem Delivery.LeadsTo.trans {c d e : Delivery V H} (first : c.LeadsTo d) (second : d.LeadsTo e) : c.LeadsTo e :=
  ⟨first.signal.trans second.signal, first.value.trans second.value, second.waiting.trans first.waiting⟩

namespace Hub

/-! ### Posting -/

/-- What a feed owes is posted, and the workers go on with what they were doing. -/
structure Posted (i : Nat) (es : List (FeedEffect V)) (p q : WorkerPool (Notice V) (Delivery V H)) :
    Prop where
  /-- The same workers serve their queues. -/
  alike : WorkerPool.Alike p q
  /-- No delivery is begun or ended. -/
  current : ∀ w, q.current? w = p.current? w
  /-- What is new in a queue is owed to the subscribers of a signal that its worker serves. -/
  queue : ∀ w parcel, parcel ∈ q.queue w → parcel ∈ p.queue w ∨
    ∃ signal value, w = p.shard signal ∧ .owed signal value ∈ es ∧ parcel = .job signal ⟨i, value⟩
  /-- What is owed to the subscribers of a signal waits for them in order. -/
  queued : (∀ signal, p.isServing (p.shard signal)) →
    ∀ signal, q.queued signal = p.queued signal ++ (owedTo signal es).map (⟨i, ·⟩)

theorem Posted.refl (i : Nat) (p : WorkerPool (Notice V) (Delivery V H)) : Posted i [] p p where
  alike := .refl p
  current _ := rfl
  queue _ _ mem := .inl mem
  queued _ _ := by simp [owedTo]

theorem Posted.trans {i : Nat} {first second : List (FeedEffect V)}
    {p q r : WorkerPool (Notice V) (Delivery V H)} (h : Posted i first p q) (h' : Posted i second q r) :
    Posted i (first ++ second) p r where
  alike := h.alike.trans h'.alike
  current w := (h'.current w).trans (h.current w)
  queue w parcel mem := by
    rcases h'.queue w parcel mem with mem | ⟨signal, value, here, owed, rfl⟩
    · rcases h.queue w parcel mem with mem | ⟨signal, value, here, owed, rfl⟩
      · exact .inl mem
      · exact .inr ⟨signal, value, here, List.mem_append_left _ owed, rfl⟩
    · exact .inr ⟨signal, value, here.trans (h.alike.shard signal), List.mem_append_right _ owed, rfl⟩
  queued serving signal := by
    have still : ∀ s, q.isServing (q.shard s) := fun s => by
      rw [h.alike.shard, h.alike.serving]
      exact serving s
    rw [h'.queued still, h.queued serving, owedTo_append, List.map_append, List.append_assoc]

theorem posted_absorb (h : Hub V H R) (i : Nat) (e : FeedEffect V) :
    Posted i [e] h.pool (h.absorb i e).1.pool := by
  have idle : (∀ signal, owedTo signal [e] = []) → Posted i [e] h.pool h.pool := fun none =>
    { Posted.refl i h.pool with
      queue := fun _ _ mem => .inl mem
      queued := fun _ signal => by simp [none] }
  cases e with
  | owed signal value =>
    refine ⟨WorkerPool.alike_send .., WorkerPool.current?_send _ _ _, ?_, ?_⟩
    · intro w parcel mem
      exact (WorkerPool.mem_queue_send mem).imp_right fun ⟨here, eq⟩ =>
        ⟨signal, value, here, List.mem_singleton_self _, eq⟩
    · intro serving s
      refine (WorkerPool.queued_post signal _ (serving signal) s).trans ?_
      by_cases eq : s = signal
      · simp [eq, owedTo]
      · simp [eq, Ne.symm eq, owedTo]
  | _ => exact idle fun _ => rfl

theorem posted_absorbAll (h : Hub V H R) (i : Nat) (es : List (FeedEffect V)) :
    Posted i es h.pool (h.absorbAll i es).1.pool := by
  induction es generalizing h with
  | nil => exact .refl i h.pool
  | cons e rest ih => exact (posted_absorb h i e).trans (ih (h.absorb i e).1)

/-- Nobody is called while effects are taken over. -/
theorem receivedBy_absorbAll (h : Hub V H R) (i : Nat) (es : List (FeedEffect V)) (token : Token) :
    receivedBy token (h.absorbAll i es).2 = [] := by
  induction es generalizing h with
  | nil => rfl
  | cons e rest ih =>
    have one : receivedBy token (h.absorb i e).2 = [] := by
      cases e with
      | owed signal value =>
        simp only [absorb]
        split <;> rfl
      | _ => rfl
    simp only [absorbAll]
    rw [receivedBy_append, one, ih]
    rfl

theorem posted_afterFeed (h : Hub V H R) (i : Nat) (fr : Feed.Result V H R) :
    Posted i fr.effects h.pool (h.afterFeed i fr).state.pool :=
  posted_absorbAll { h with feeds := h.feeds.set i fr.state } i fr.effects

theorem Serves.pool_eq {h g : Hub V H R} {l : HubLabel V H R} {i : Nat} {fl : FeedLabel V H R}
    (s : h.Serves l i fl g) : g.pool = h.pool := by cases s <;> rfl

/-! ### One step -/

/-- A feed has an outlet for a signal. -/
def HasSignal (h : Hub V H R) (i : Nat) (signal : SignalId) : Prop :=
  ∃ f, h.feeds[i]? = some f ∧ (f.outlet? signal).isSome

section Step

variable [SignalValue V] {h : Hub V H R} {l : HubLabel V H R} {r : Result V H R}

theorem Transition.hasSignal (t : h.Transition l r) {i : Nat} {signal : SignalId}
    (has : h.HasSignal i signal) : r.state.HasSignal i signal := by
  obtain ⟨f, there, known⟩ := has
  have keys := congrArg (·[i]?) t.keys_eq
  simp only [List.getElem?_map, there, Option.map_some] at keys
  obtain ⟨f', there', same⟩ := Option.map_eq_some_iff.1 keys
  exact ⟨f', there', (Feed.isSome_outlet?_of_keys same signal).trans known⟩

theorem Transition.staff (t : h.Transition l r) :
    r.state.pool.size = h.pool.size ∧ r.state.pool.catches = h.pool.catches := by
  have of_alike : ∀ {p : WorkerPool (Notice V) (Delivery V H)}, WorkerPool.Alike h.pool p →
      p.size = h.pool.size ∧ p.catches = h.pool.catches := fun alike => ⟨alike.size, alike.catches⟩
  cases t with
  | feed serves => exact of_alike (serves.pool_eq ▸ (posted_afterFeed ..).alike)
  | take taken => exact of_alike (WorkerPool.takes_of_take taken).1
  | call | returned => exact of_alike (WorkerPool.alike_setCurrent ..)
  | collapsed | stop => exact ⟨WorkerPool.size_collapse .., rfl⟩
  | finish => exact of_alike (WorkerPool.alike_finish ..)
  | startFlush => exact of_alike (WorkerPool.marks_startFlush _).alike
  | mark marked => exact of_alike (WorkerPool.marks_of_mark marked).alike
  | resolve resolved => exact of_alike (WorkerPool.marks_of_resolve resolved).alike
  | _ => exact ⟨rfl, rfl⟩

/-- While panics are caught and the feeds are not let go of, a worker that serves its queue goes on. -/
theorem Transition.isServing_eq (t : h.Transition l r) (catches : h.pool.catches = true)
    (kept : r.state.life ≠ .closed) (w : Nat) : r.state.pool.isServing w = h.pool.isServing w := by
  cases t with
  | feed serves => rw [(posted_afterFeed ..).alike.serving, serves.pool_eq]
  | take taken => exact (WorkerPool.takes_of_take taken).1.serving w
  | call | returned => exact (WorkerPool.alike_setCurrent ..).serving w
  | collapsed current uncaught => cases catches.symm.trans uncaught
  | stop abandoned =>
    simp only [isAbandoned, Bool.and_eq_true, decide_eq_true_eq] at abandoned
    exact absurd abandoned.1 kept
  | finish => exact (WorkerPool.alike_finish ..).serving w
  | startFlush => exact (WorkerPool.marks_startFlush _).alike.serving w
  | mark marked => exact (WorkerPool.marks_of_mark marked).alike.serving w
  | resolve resolved => exact (WorkerPool.marks_of_resolve resolved).alike.serving w
  | _ => rfl

/-- A job that waits after a step waited before, or is owed by the step that its feed has just made. -/
theorem Transition.mem_queue_of_owed (t : h.Transition l r) {w : Nat} {signal : SignalId} {notice : Notice V}
    (mem : .job signal notice ∈ r.state.pool.queue w) :
    .job signal notice ∈ h.pool.queue w ∨ w = h.pool.shard signal ∧ ∃ fl g f fr, h.Serves l notice.feed fl g ∧
      h.feeds[notice.feed]? = some f ∧ f.step fl = some fr ∧ .owed signal notice.value ∈ fr.effects := by
  have marked : ∀ {p : WorkerPool (Notice V) (Delivery V H)}, WorkerPool.Marks h.pool p →
      .job signal notice ∈ p.queue w → .job signal notice ∈ h.pool.queue w := fun marks mem =>
    (marks.queue w _ mem).resolve_right fun ⟨_, eq⟩ => by cases eq
  cases t with
  | @feed l i fl g f fr serves there step =>
    rcases (posted_afterFeed ..).queue w _ mem with mem | ⟨s, value, here, owed, eq⟩
    · exact .inl (serves.pool_eq ▸ mem)
    · cases eq
      exact .inr ⟨serves.pool_eq ▸ here, fl, g, f, fr, serves, there, step, owed⟩
  | @take v p taken =>
    rcases (WorkerPool.takes_of_take taken).2 with ⟨s, n, rest, -, head, queue, -⟩ | ⟨m, rest, head, queue, -⟩
    all_goals
      rw [queue] at mem
      split at mem
      · rename_i eq
        rw [eq, head]
        exact .inl (List.mem_cons_of_mem _ mem)
      · exact .inl mem
  | call doing | returned doing => exact .inl (WorkerPool.queue_setCurrent doing w ▸ mem)
  | collapsed | stop => exact .inl (WorkerPool.mem_queue_collapse mem)
  | finish doing => exact .inl (WorkerPool.queue_finish doing w ▸ mem)
  | startFlush => exact .inl (marked (WorkerPool.marks_startFlush _) mem)
  | mark made => exact .inl (marked (WorkerPool.marks_of_mark made) mem)
  | resolve made => exact .inl (marked (WorkerPool.marks_of_resolve made) mem)
  | _ => exact .inl mem

/-- A job that waits after a step waited before, or has just been posted for a signal of its feed. -/
theorem Transition.mem_queue (t : h.Transition l r)
    (orderly : ∀ {i : Nat} {f : Feed V H R}, h.feeds[i]? = some f → f.Orderly) {w : Nat} {signal : SignalId}
    {notice : Notice V} (mem : .job signal notice ∈ r.state.pool.queue w) :
    .job signal notice ∈ h.pool.queue w ∨ w = h.pool.shard signal ∧ h.HasSignal notice.feed signal := by
  refine (t.mem_queue_of_owed mem).imp_right (And.imp_right ?_)
  rintro ⟨fl, g, f, fr, -, there, step, owed⟩
  have shown := (Feed.transition_of_step step).shown_of_owed (orderly there) (mem_owedTo.2 owed)
  exact ⟨f, there, Feed.isSome_of_cached? shown⟩

/-- **What a step does to a worker's delivery**: nothing; or it begins, with those who are subscribed; or it calls the
next subscriber; or the one called returns. -/
inductive Delivers (h : Hub V H R) (w : Nat) : HubLabel V H R → List (HubEffect V H) → Delivery V H → Prop where
  /-- The delivery goes on as it was. -/
  | same {l : HubLabel V H R} {es : List (HubEffect V H)} {d : Delivery V H} (doing : h.pool.current? w = some d)
      (other : l ≠ .move (.call w)) : Delivers h w l es d
  /-- A job is taken up. -/
  | taken {signal : SignalId} {notice : Notice V} {rest : List (Parcel (Notice V))}
      (head : h.pool.queue w = .job signal notice :: rest) :
      Delivers h w (.move (.take w)) []
        { signal, value := notice.value, waiting := h.subscribersOf notice.feed signal }
  /-- The next subscriber is called. -/
  | called {signal : SignalId} {value : V} {token : Token} {handler : H} {rest : List (Token × H)}
      (doing : h.pool.current? w = some ⟨signal, value, (token, handler) :: rest, none⟩) :
      Delivers h w (.move (.call w)) [.called token handler signal value] ⟨signal, value, rest, some (token, handler)⟩
  /-- The subscriber called returns. -/
  | returned {panicked : Bool} {es : List (HubEffect V H)} {signal : SignalId} {value : V} {e : Token × H}
      {rest : List (Token × H)} (doing : h.pool.current? w = some ⟨signal, value, rest, some e⟩) :
      Delivers h w (.move (.returned w panicked)) es ⟨signal, value, rest, none⟩

/-- What a worker is delivering after a step. -/
theorem Transition.delivers (t : h.Transition l r) {w : Nat} {d : Delivery V H}
    (doing : r.state.pool.current? w = some d) : h.Delivers w l r.effects d := by
  have same : ∀ {p : WorkerPool (Notice V) (Delivery V H)} {l : HubLabel V H R} {es : List (HubEffect V H)},
      p.current? w = h.pool.current? w → p.current? w = some d → l ≠ .move (.call w) → h.Delivers w l es d :=
    fun eq doing other => .same (eq.symm.trans doing) other
  cases t with
  | feed serves =>
    refine same ((serves.pool_eq ▸ posted_afterFeed ..).current w) doing ?_
    rintro rfl
    cases serves
  | @take v p taken =>
    rcases (WorkerPool.takes_of_take taken).2 with
      ⟨s, n, rest, -, head, -, current⟩ | ⟨m, rest, -, -, current⟩
    · rw [current] at doing
      split at doing
      · rename_i eq
        subst eq
        cases doing
        exact .taken head
      · exact .same doing nofun
    · exact same (current w) doing nofun
  | @call v signal value token handler rest was =>
    rw [WorkerPool.current?_setCurrent was] at doing
    split at doing
    · rename_i eq
      subst eq
      cases doing
      exact .called was
    · rename_i other
      exact .same doing fun eq => other (by cases eq; rfl)
  | returned was =>
    rw [WorkerPool.current?_setCurrent was] at doing
    split at doing
    · rename_i eq
      subst eq
      cases doing
      exact .returned was
    · exact .same doing nofun
  | collapsed | stop => exact .same (WorkerPool.current?_of_collapse doing) nofun
  | finish was =>
    rw [WorkerPool.current?_finish was] at doing
    split at doing
    · cases doing
    · exact .same doing nofun
  | startFlush => exact same ((WorkerPool.marks_startFlush _).current w) doing nofun
  | mark made => exact same ((WorkerPool.marks_of_mark made).current w) doing nofun
  | resolve made => exact same ((WorkerPool.marks_of_resolve made).current w) doing nofun
  | _ => exact .same doing nofun

/-- A delivery under way after a step was so before, or has just been begun with those who are subscribed. -/
theorem Transition.current (t : h.Transition l r) {w : Nat} {d : Delivery V H}
    (doing : r.state.pool.current? w = some d) :
    (∃ e, h.pool.current? w = some e ∧ e.LeadsTo d) ∨
      ∃ i, .job d.signal ⟨i, d.value⟩ ∈ h.pool.queue w ∧ d.waiting = h.subscribersOf i d.signal := by
  have delivers := t.delivers doing
  generalize r.effects = es at delivers
  cases delivers with
  | same was => exact .inl ⟨d, was, .refl d⟩
  | taken head => exact .inr ⟨_, head ▸ List.mem_cons_self, rfl⟩
  | called was => exact .inl ⟨_, was, rfl, rfl, List.suffix_cons ..⟩
  | returned was => exact .inl ⟨_, was, rfl, rfl, List.suffix_refl _⟩

end Step

/-! ### The invariant -/

/-- **What holds of a hub's workers.** -/
structure Staffed (settings : Settings) (h : Hub V H R) : Prop where
  /-- There are as many workers as the settings say. -/
  size : h.pool.size = settings.workerCount
  /-- Panics are caught if the settings say so. -/
  catches : h.pool.catches = settings.catches
  /-- A job waits at the worker that serves its signal, and its feed has the signal. -/
  routed : ∀ w signal notice, .job signal notice ∈ h.pool.queue w →
    w = h.pool.shard signal ∧ h.HasSignal notice.feed signal
  /-- A delivery is made by the worker that serves its signal. -/
  placed : ∀ w d, h.pool.current? w = some d → w = h.pool.shard d.signal
  /-- Those to be called have had their turn to be subscribed, and are not subscribed to any other
  signal than the one whose value is delivered. -/
  listed : ∀ w d, h.pool.current? w = some d → ∀ e ∈ d.waiting,
    h.Spent e.1 ∧ ∀ i signal e', e' ∈ h.subscribersOf i signal → e'.1 = e.1 → signal = d.signal
  /-- While panics are caught and the feeds are not let go of, every worker serves its queue. -/
  serving : settings.catches = true → h.life ≠ .closed → ∀ w < h.pool.size, h.pool.isServing w

theorem staffed_of_assemble {settings : Settings} {plans : List (FeedPlan V)} {h : Hub V H R}
    (start : assemble settings plans = .ok h) : h.Staffed settings := by
  obtain ⟨-, rfl⟩ := eq_of_assemble start
  have worker : ∀ {w : Nat} {x : Worker (Notice V) (Delivery V H)},
      (List.replicate settings.workerCount {})[w]? = some x → x = {} := fun hx =>
    List.eq_of_mem_replicate (List.mem_of_getElem? hx)
  have undone : ∀ w, (WorkerPool.ofSize settings.workerCount settings.catches :
      WorkerPool (Notice V) (Delivery V H)).current? w = none := WorkerPool.current?_ofSize _ _
  constructor
  · exact List.length_replicate
  · rfl
  · intro w signal notice mem
    simp only [WorkerPool.queue, WorkerPool.ofSize] at mem
    cases there : (List.replicate settings.workerCount ({} : Worker (Notice V) (Delivery V H)))[w]? with
    | none => simp [there] at mem
    | some x => simp [there, worker there] at mem
  · intro w d doing
    cases (undone w).symm.trans doing
  · intro w d doing
    cases (undone w).symm.trans doing
  · intro _ _ w lt
    have lt : w < settings.workerCount := by simpa [WorkerPool.size, WorkerPool.ofSize] using lt
    simp [WorkerPool.isServing, WorkerPool.ofSize, lt]

section Reachable

variable [SignalValue V] {settings : Settings} {plans : List (FeedPlan V)} {h : Hub V H R}

theorem Staffed.step {l : HubLabel V H R} {r : Result V H R} (staffed : h.Staffed settings)
    (reachable : Reachable settings plans h) (t : h.Transition l r) : r.state.Staffed settings := by
  obtain ⟨size, catches⟩ := t.staff
  have shard : ∀ signal, r.state.pool.shard signal = h.pool.shard signal := fun signal => by
    rw [WorkerPool.shard, size, WorkerPool.shard]
  constructor
  · exact size.trans staffed.size
  · exact catches.trans staffed.catches
  · intro w signal notice mem
    rw [shard]
    rcases t.mem_queue reachable.orderly mem with mem | ⟨here, has⟩
    · obtain ⟨here, has⟩ := staffed.routed w signal notice mem
      exact ⟨here, t.hasSignal has⟩
    · exact ⟨here, t.hasSignal has⟩
  · intro w d doing
    rw [shard]
    rcases t.current doing with ⟨e, was, leads⟩ | ⟨i, mem, -⟩
    · exact leads.signal ▸ staffed.placed w e was
    · exact (staffed.routed w d.signal _ mem).1
  · intro w d doing e he
    have listed : h.Spent e.1 ∧
        ∀ i signal e', e' ∈ h.subscribersOf i signal → e'.1 = e.1 → signal = d.signal := by
      rcases t.current doing with ⟨d', was, leads⟩ | ⟨i, mem, all⟩
      · exact leads.signal ▸ staffed.listed w d' was e (leads.waiting.subset he)
      · rw [all] at he
        exact ⟨reachable.spent_of_mem he, fun i signal e' he' same => (reachable.single he' he same).2⟩
    refine ⟨t.spent listed.1, ?_⟩
    intro i signal e' he' same
    -- a token that is spent is nobody's who has just come
    have old := (t.lists_at he').resolve_right fun awaits => listed.1.2 (same ▸ awaits)
    exact listed.2 i signal e' old same
  · intro catch' kept w lt
    rw [t.isServing_eq (staffed.catches.trans catch') kept]
    exact staffed.serving catch' (fun closed => kept (t.life_closed closed)) w (size ▸ lt)

/-- **The invariant of the workers holds of every state that a hub comes to.** -/
theorem Reachable.staffed (reachable : Reachable settings plans h) : h.Staffed settings := by
  induction reachable with
  | assembled start => exact staffed_of_assemble start
  | step before own made ih => exact ih.step before (transition_of_step made)

end Reachable

end Hub

end LazyHub
