import LazyHub.Proofs.Feed.Accepted
import LazyHub.Proofs.Hub.Activation
import LazyHub.Proofs.Hub.Draining

/-!
# What a subscriber receives

Somebody who subscribes while nothing waits to be delivered for the signal receives from then on the
changes that pushes make to the signal, each once and in order. This is the outcome of several things
that have to fit together: the gate decides what is a change, whoever pulls finds nobody subscribed,
a change is posted whenever somebody is subscribed, one worker delivers all that is posted for a
signal, and each delivery calls those who are subscribed when it starts.

* `WorkerPool.pending` is what a subscriber is yet to be called with, for all that is posted by now, and
  `Hub.due` adds the change that a push is about to post.
* `Transition.received_eq` is the account of one step: what is received in it and what is due after it
  are what was due before and the changes that the step makes.
* `Hub.receives_changes` is the account of a whole run, from the moment of subscribing.

One who subscribes between the gate and the posting of a change finds the signal changed already, and is
told of it all the same (`Hub.lamp_tells_what_is_known`).
-/

namespace LazyHub

variable {V H R : Type}

/-! ### What is pending -/

/-- What a delivery is yet to call a subscriber with. -/
def Delivery.owes (d : Delivery V H) (token : Token) : List V :=
  (d.waiting.filter (·.1 = token)).map fun _ => d.value

namespace WorkerPool

/-- What a subscriber to a signal is yet to be called with: for the delivery under way, and for the
jobs that wait behind it. -/
def pending (p : WorkerPool (Notice V) (Delivery V H)) (signal : SignalId) (token : Token) : List V :=
  ((p.current? (p.shard signal)).map (·.owes token)).getD [] ++ (p.queued signal).map (·.value)

variable {p q : WorkerPool (Notice V) (Delivery V H)} {signal : SignalId} {token : Token}

theorem pending_of_marks (marks : Marks p q) : q.pending signal token = p.pending signal token := by
  rw [pending, marks.alike.shard, marks.current, marks.queued, pending]

/-- What a worker does that serves another queue makes no difference. -/
theorem pending_of_other {w : Nat} (alike : Alike p q) (other : p.shard signal ≠ w)
    (queue : ∀ v ≠ w, q.queue v = p.queue v) (current : ∀ v ≠ w, q.current? v = p.current? v) :
    q.pending signal token = p.pending signal token := by
  rw [pending, queued, alike.shard, current _ other, queue _ other, pending, queued]

/-- A delivery that goes on changes what its worker owes. -/
theorem pending_setCurrent {d e : Delivery V H} (doing : p.current? (p.shard signal) = some d) :
    (p.setCurrent (p.shard signal) e).pending signal token =
      e.owes token ++ (p.queued signal).map (·.value) := by
  rw [pending, queued, (alike_setCurrent ..).shard, queue_setCurrent doing, current?_setCurrent doing,
    if_pos rfl, queued]
  rfl

theorem pending_of_doing {d : Delivery V H} (doing : p.current? (p.shard signal) = some d) :
    p.pending signal token = d.owes token ++ (p.queued signal).map (·.value) := by
  rw [pending, doing]
  rfl

theorem pending_of_isDrained (drained : p.IsDrained) : p.pending signal token = [] := by
  rw [pending, queued, (drained _).1, (drained _).2]
  rfl

theorem pending_setCurrent_of_other {w : Nat} {d e : Delivery V H} (doing : p.current? w = some d)
    (other : p.shard signal ≠ w) : (p.setCurrent w e).pending signal token = p.pending signal token := by
  refine pending_of_other (alike_setCurrent ..) other (fun v _ => queue_setCurrent doing v) fun v ne => ?_
  rw [current?_setCurrent doing, if_neg ne]

end WorkerPool

namespace Hub

/-- What a step does at a feed, if what is under way there moves on. -/
def atFeed {α : Type} (i : Nat) (what : Feed V H R → FeedLabel V H R → List α) (h : Hub V H R) :
    HubLabel V H R → List α
  | .move (.advance j move) =>
    if j = i then (h.feeds[i]?.map fun f => what f (.advance move)).getD [] else []
  | _ => []

/-- What pushes write to a feed in the course of a run. -/
def pushedTo (i : Nat) (trail : List (Moment (Hub V H R) (HubLabel V H R) (HubEffect V H))) :
    List (Emission V) :=
  trail.flatMap fun m => m.before.atFeed i Feed.pushed m.label

/-- The values of the pushes that a feed accepts in the course of a run. -/
def acceptedBy (i : Nat) (trail : List (Moment (Hub V H R) (HubLabel V H R) (HubEffect V H))) :
    List (Emission V) :=
  trail.flatMap fun m => m.before.atFeed i Feed.accepted m.label

/-- What the push that holds a feed's update lock has yet to write. -/
def yetToPush (i : Nat) (h : Hub V H R) : List (Emission V) := (h.feeds[i]?.map (·.yetToPush)).getD []

/-- The change of a signal that the push which holds a feed's update lock is not done with: it has yet
to look whether anyone is subscribed, or to post the change. There is none while the lock is free
(`unposted_of_free`). -/
def unposted (i : Nat) (signal : SignalId) (h : Hub V H R) : List V :=
  (h.feeds[i]?.map fun f => valuesFor signal f.news).getD []

/-- What a subscriber to a signal of a feed is yet to be called with: for what is posted by now, and
for the change that is about to be. -/
def due (i : Nat) (signal : SignalId) (token : Token) (h : Hub V H R) : List V :=
  h.pool.pending signal token ++ h.unposted i signal

theorem unposted_eq {h : Hub V H R} {i : Nat} {f : Feed V H R} (there : h.feeds[i]? = some f)
    (signal : SignalId) : h.unposted i signal = valuesFor signal f.news := by
  rw [unposted, there]
  rfl

/-- Every change is posted once the update lock is free. -/
theorem unposted_of_free {h : Hub V H R} {i : Nat} {f : Feed V H R} (there : h.feeds[i]? = some f)
    (free : f.writer = none) (signal : SignalId) : h.unposted i signal = [] := by
  rw [unposted_eq there, Feed.news_eq_nil free]
  rfl

theorem atFeed_of_serves {α : Type} {h g : Hub V H R} {l : HubLabel V H R} {i j : Nat}
    {fl : FeedLabel V H R} {f : Feed V H R} {what : Feed V H R → FeedLabel V H R → List α}
    (s : h.Serves l j fl g) (there : h.feeds[j]? = some f)
    (none : ∀ fl, (∀ move, fl ≠ .advance move) → what f fl = []) :
    h.atFeed i what l = if j = i then what f fl else [] := by
  have idle : (∀ move, fl ≠ .advance move) → [] = if j = i then what f fl else [] := fun other => by
    rw [none fl other, ite_self]
  cases s with
  | advance =>
    by_cases eq : j = i
    · subst eq
      simp [atFeed, there]
    · simp [atFeed, eq]
  | @use _ u _ made =>
    apply idle
    intro move
    cases u <;> cases made <;> exact nofun
  | _ => exact idle nofun

section Step

variable [SignalValue V] {settings : Settings} {plans : List (FeedPlan V)} {h : Hub V H R}
  {l : HubLabel V H R} {r : Result V H R}

section Subscribed

variable (reachable : Reachable settings plans h) {i : Nat} {signal : SignalId} {e : Token × H}
  (mem : e ∈ h.subscribersOf i signal)
include reachable mem

/-- What a feed owes the subscribers of a signal is owed by the feed that serves it, for the changes that
pushes make there. -/
theorem owedTo_of_mem {f : Feed V H R} (there : h.feeds[i]? = some f) {v : V}
    (known : f.cached? signal = some v) {g : Hub V H R} {j : Nat} {fl : FeedLabel V H R} {k : Feed V H R}
    {fr : Feed.Result V H R} (serves : h.Serves l j fl g) (at' : h.feeds[j]? = some k)
    (made : k.step fl = some fr) :
    owedTo signal fr.effects ++ (g.afterFeed j fr).state.unposted i signal =
      h.unposted i signal ++ changes v (valuesFor signal (h.atFeed i Feed.pushed l)) := by
  have t := Feed.transition_of_step made
  rw [atFeed_of_serves serves at' fun _ other => Feed.pushed_eq_nil (other _), unposted_eq there]
  by_cases eq : j = i
  · subst eq
    obtain rfl : f = k := Option.some.inj (there.symm.trans at')
    obtain ⟨f', there', lists⟩ := mem_subscribersOf.1 mem
    obtain rfl : f = f' := Option.some.inj (there.symm.trans there')
    have after : (g.afterFeed j fr).state.feeds[j]? = some fr.state := by
      rw [afterFeed_feeds, serves.feeds_eq, List.getElem?_set_self', at']
      rfl
    rw [if_pos rfl, unposted_eq after]
    exact (t.owes_changes (reachable.orderly there)
      (reachable.sound.balanced f (List.mem_of_getElem? there)) lists known).1
  · have after : (g.afterFeed j fr).state.feeds[i]? = some f := by
      rw [afterFeed_feeds, serves.feeds_eq, List.getElem?_set_ne eq, there]
    have nothing : owedTo signal fr.effects = [] := by
      refine List.eq_nil_iff_forall_not_mem.2 fun x owed => eq ?_
      have shown := t.shown_of_owed (reachable.orderly at') owed
      exact reachable.same_feed at' there (Feed.isSome_of_cached? shown) (Feed.isSome_of_cached? known)
    rw [if_neg eq, nothing, unposted_eq after]
    exact (List.append_nil _).symm

/-- A job that is taken up becomes a call that is pending, and was pending before. -/
theorem pending_of_takes {w : Nat} {p : WorkerPool (Notice V) (Delivery V H)}
    (alike : WorkerPool.Alike h.pool p)
    (takes : h.pool.Takes w (fun signal notice =>
      { signal, value := notice.value, waiting := h.subscribersOf notice.feed signal }) p) :
    p.pending signal e.1 = h.pool.pending signal e.1 := by
  have staffed := reachable.staffed
  by_cases other : h.pool.shard signal = w
  swap
  · cases takes with
    | job _ _ _ _ _ queue current =>
      exact WorkerPool.pending_of_other alike other (fun v ne => by rw [queue, if_neg ne])
        fun v ne => by rw [current, if_neg ne]
    | marker _ _ _ queue current =>
      exact WorkerPool.pending_of_other alike other (fun v ne => by rw [queue, if_neg ne])
        fun v _ => current v
  subst other
  rw [WorkerPool.pending, WorkerPool.queued, alike.shard, WorkerPool.pending, WorkerPool.queued]
  cases takes with
  | job s notice rest idle head queue current =>
    rw [queue, current, if_pos rfl, if_pos rfl, idle, head]
    obtain ⟨-, has⟩ := staffed.routed _ s notice (head ▸ List.mem_cons_self)
    by_cases eq : s = signal
    · subst eq
      obtain ⟨f, there, lists⟩ := mem_subscribersOf.1 mem
      obtain ⟨o, ho, -⟩ := lists
      obtain ⟨g, hg, known⟩ := has
      obtain rfl := reachable.same_feed hg there known (Option.isSome_of_eq_some ho)
      simp [Delivery.owes, filter_subscribersOf mem, jobsFor]
    · have nobody : (h.subscribersOf notice.feed s).filter (·.1 = e.1) = [] := by
        refine List.filter_eq_nil_iff.2 fun x hx same => eq ?_
        exact (reachable.single hx mem (of_decide_eq_true same)).2
      simp [Delivery.owes, nobody, jobsFor, eq]
  | marker flush rest head queue current =>
    rw [queue, current, if_pos rfl, head]
    simp [jobsFor]

/-- **The account of one step.** What a subscriber receives in a step and is yet to be called with after
it is what it was yet to be called with before, and the changes that pushes make in the step. -/
theorem Transition.received_eq (catches : settings.catches = true) (t : h.Transition l r) {f : Feed V H R}
    (there : h.feeds[i]? = some f) {v : V} (known : f.cached? signal = some v) :
    receivedBy e.1 r.effects ++ r.state.due i signal e.1 =
      h.due i signal e.1 ++ changes v (valuesFor signal (h.atFeed i Feed.pushed l)) := by
  have staffed := reachable.staffed
  have kept := reachable.open_of_mem mem
  -- what is not a step of a feed leaves alone what pushes do
  have elsewhere : r.state.unposted i signal = h.unposted i signal → h.atFeed i Feed.pushed l = [] →
      receivedBy e.1 r.effects ++ r.state.pool.pending signal e.1 = h.pool.pending signal e.1 →
      receivedBy e.1 r.effects ++ r.state.due i signal e.1 =
        h.due i signal e.1 ++ changes v (valuesFor signal (h.atFeed i Feed.pushed l)) := by
    intro same idle account
    rw [due, ← List.append_assoc, account, same, idle, due]
    exact (List.append_nil _).symm
  cases t with
  | @feed l j fl g k fr serves at' made =>
    have posted := serves.pool_eq ▸ posted_afterFeed g j fr
    have serving : ∀ s, h.pool.isServing (h.pool.shard s) := fun s => by
      refine staffed.serving catches kept _ (WorkerPool.shard_lt ?_ s)
      rw [staffed.size]
      exact Nat.le_max_right _ _
    have silent : receivedBy e.1 (g.afterFeed j fr).effects = [] := receivedBy_absorbAll ..
    have values : (owedTo signal fr.effects).map ((·.value) ∘ fun v => (⟨j, v⟩ : Notice V)) =
        owedTo signal fr.effects := List.map_id _
    rw [silent, List.nil_append, due, WorkerPool.pending, posted.alike.shard, posted.current,
      posted.queued serving, List.map_append, List.map_map, values, due, WorkerPool.pending]
    simp only [List.append_assoc, ← owedTo_of_mem reachable mem there known serves at' made]
  | take taken =>
    obtain ⟨alike, takes⟩ := WorkerPool.takes_of_take taken
    exact elsewhere rfl rfl (pending_of_takes reachable mem alike takes)
  | @call w s value token handler rest doing =>
    refine elsewhere rfl rfl ?_
    by_cases here : h.pool.shard signal = w
    · subst here
      rw [WorkerPool.pending_setCurrent doing, WorkerPool.pending_of_doing doing]
      by_cases named : token = e.1 <;> simp [receivedBy, named, Delivery.owes]
    · -- the subscriber would be called by the worker of its own signal
      have stranger : token ≠ e.1 := fun named => by
        obtain ⟨-, only⟩ := staffed.listed w _ doing (token, handler) List.mem_cons_self
        have same := only i signal e mem named.symm
        exact here ((staffed.placed w _ doing).trans (congrArg _ same.symm)).symm
      rw [WorkerPool.pending_setCurrent_of_other doing here]
      simp [receivedBy, stranger]
  | @returned w panicked s value rest token handler doing caught =>
    have silent : receivedBy e.1 (if panicked then [.noted (.subscriberPanicked token s)] else [] :
        List (HubEffect V H)) = [] := by
      cases panicked <;> rfl
    refine elsewhere rfl rfl ?_
    rw [silent, List.nil_append]
    by_cases here : h.pool.shard signal = w
    · subst here
      rw [WorkerPool.pending_setCurrent doing, WorkerPool.pending_of_doing doing]
      rfl
    · exact WorkerPool.pending_setCurrent_of_other doing here
  | collapsed doing uncaught => cases (staffed.catches.trans catches).symm.trans uncaught
  | @finish w s value doing =>
    refine elsewhere rfl rfl ?_
    by_cases here : h.pool.shard signal = w
    · subst here
      rw [WorkerPool.pending_of_doing doing]
      change (h.pool.finish _).pending signal e.1 = _
      rw [WorkerPool.pending, WorkerPool.queued, (WorkerPool.alike_finish ..).shard,
        WorkerPool.queue_finish doing, WorkerPool.current?_finish doing, if_pos rfl, WorkerPool.queued]
      rfl
    · refine WorkerPool.pending_of_other (WorkerPool.alike_finish ..) here
        (fun v _ => WorkerPool.queue_finish doing v) fun v ne => ?_
      rw [WorkerPool.current?_finish doing, if_neg ne]
  | stop abandoned =>
    simp only [isAbandoned, Bool.and_eq_true, decide_eq_true_eq] at abandoned
    exact absurd abandoned.1 kept
  | startFlush => exact elsewhere rfl rfl (WorkerPool.pending_of_marks (WorkerPool.marks_startFlush _))
  | mark marked => exact elsewhere rfl rfl (WorkerPool.pending_of_marks (WorkerPool.marks_of_mark marked))
  | resolve resolved =>
    exact elsewhere rfl rfl (WorkerPool.pending_of_marks (WorkerPool.marks_of_resolve resolved))
  | letGo =>
    have after : h.letGo.feeds[i]? = some { f with handles := f.handles - 1 } :=
      List.getElem?_map.trans (congrArg _ there)
    exact elsewhere ((unposted_eq after signal).trans (unposted_eq there signal).symm) rfl rfl
  | _ => exact elsewhere rfl rfl rfl

end Subscribed

/-- The caches of a feed and what it has yet to write, after a step of the hub. -/
theorem Transition.feed_at (t : h.Transition l r) (reachable : Reachable settings plans h) {i : Nat}
    {signal : SignalId} {e : Token × H} (mem : e ∈ h.subscribersOf i signal) {f : Feed V H R}
    (there : h.feeds[i]? = some f) {v : V} (known : f.cached? signal = some v) :
    ∃ f', r.state.feeds[i]? = some f' ∧
      f'.cached? signal = some (settled v (valuesFor signal (h.atFeed i Feed.pushed l))) ∧
      f.yetToPush ++ h.atFeed i Feed.accepted l = h.atFeed i Feed.pushed l ++ f'.yetToPush := by
  cases t with
  | @feed l j fl g k fr serves at' made =>
    have t := Feed.transition_of_step made
    rw [atFeed_of_serves serves at' fun _ other => Feed.pushed_eq_nil (other _),
      atFeed_of_serves serves at' fun _ other => Feed.accepted_eq_nil fun _ => other _,
      afterFeed_feeds, serves.feeds_eq]
    by_cases eq : j = i
    · subst eq
      obtain rfl : f = k := Option.some.inj (there.symm.trans at')
      obtain ⟨f', there', lists⟩ := mem_subscribersOf.1 mem
      obtain rfl : f = f' := Option.some.inj (there.symm.trans there')
      obtain ⟨-, cached⟩ := t.owes_changes (reachable.orderly there)
        (reachable.sound.balanced f (List.mem_of_getElem? there)) lists known
      simp only [if_true]
      exact ⟨fr.state, by rw [List.getElem?_set_self', at']; rfl, cached, t.yetToPush_eq⟩
    · simp only [if_neg eq, List.append_nil, List.nil_append]
      exact ⟨f, by rw [List.getElem?_set_ne eq, there], known, rfl⟩
  | letGo =>
    refine ⟨{ f with handles := f.handles - 1 }, ?_, known, List.append_nil _⟩
    exact List.getElem?_map.trans (congrArg _ there)
  | _ => exact ⟨f, there, known, List.append_nil _⟩

/-! ### A run -/

section Run

variable {h k : Hub V H R} {labels : List (HubLabel V H R)} {es : List (HubEffect V H)}

/-- **The account of a run.** -/
theorem received_of_run (catches : settings.catches = true) (reachable : Reachable settings plans h)
    (own : ∀ l ∈ labels, l.IsOwn) (ran : run Hub.step labels h = some (k, es)) {i : Nat}
    {signal : SignalId} {e : Token × H} (spent : h.Spent e.1) (still : e ∈ k.subscribersOf i signal)
    {f : Feed V H R} (there : h.feeds[i]? = some f) {v : V} (known : f.cached? signal = some v) :
    let past := trail Hub.step labels h
    let told := valuesFor signal (pushedTo i past)
    receivedBy e.1 es ++ k.due i signal e.1 = h.due i signal e.1 ++ changes v told ∧
      ∃ f', k.feeds[i]? = some f' ∧ f'.cached? signal = some (settled v told) ∧
        f.yetToPush ++ acceptedBy i past = pushedTo i past ++ f'.yetToPush := by
  induction labels generalizing h es f v with
  | nil =>
    cases ran
    exact ⟨(List.append_nil _).symm, f, there, known, List.append_nil _⟩
  | cons l rest ih =>
    obtain ⟨r, later, made, onward, rfl⟩ := run_cons.1 ran
    have t := transition_of_step made
    have mem := lists_of_spent ran spent still
    have account := t.received_eq reachable mem catches there known
    obtain ⟨g, hg, cached, wrote⟩ := t.feed_at reachable mem there known
    obtain ⟨account', g', hg', cached', wrote'⟩ := ih (reachable.step (own l List.mem_cons_self) made)
      (fun l hl => own l (List.mem_cons_of_mem _ hl)) onward (t.spent spent) hg cached
    have pushed : pushedTo i (trail Hub.step (l :: rest) h) =
        h.atFeed i Feed.pushed l ++ pushedTo i (trail Hub.step rest r.state) := by
      rw [trail_cons made]
      rfl
    have accepted : acceptedBy i (trail Hub.step (l :: rest) h) =
        h.atFeed i Feed.accepted l ++ acceptedBy i (trail Hub.step rest r.state) := by
      rw [trail_cons made]
      rfl
    simp only [pushed, accepted, valuesFor_append, settled_append, changes_append]
    refine ⟨?_, g', hg', cached', ?_⟩
    · rw [receivedBy_append, List.append_assoc, account', ← List.append_assoc, account, List.append_assoc]
    · rw [← List.append_assoc, wrote, List.append_assoc, wrote', List.append_assoc]

/-- Workers push nothing. -/
theorem pushedTo_of_work (works : ∀ l ∈ labels, l.IsWork) (i : Nat) :
    pushedTo i (trail Hub.step labels h) = [] := by
  induction labels generalizing h with
  | nil => rfl
  | cons l rest ih =>
    have idle : ∀ k : Hub V H R, k.atFeed i Feed.pushed l = [] := fun k => by
      have work := works l List.mem_cons_self
      unfold atFeed
      split
      · exact work.elim
      · rfl
    cases made : h.step l with
    | none => simp [trail, made, pushedTo]
    | some r =>
      rw [trail_cons made, pushedTo, List.flatMap_cons, idle]
      exact ih fun l hl => works l (List.mem_cons_of_mem _ hl)

/-- Once the workers have come to rest, everything that was pending is received. -/
theorem received_of_drain (catches : settings.catches = true) (reachable : Reachable settings plans h)
    (own : ∀ l ∈ labels, l.IsOwn) (ran : run Hub.step labels h = some (k, es)) {i : Nat}
    {signal : SignalId} {e : Token × H} (spent : h.Spent e.1) (still : e ∈ k.subscribersOf i signal)
    {f : Feed V H R} (there : h.feeds[i]? = some f) {v : V} (known : f.cached? signal = some v)
    {more : List (HubLabel V H R)} {later : List (HubEffect V H)} {k' : Hub V H R}
    (works : ∀ l ∈ more, l.IsWork) (onward : run Hub.step more k = some (k', later)) :
    more.length ≤ k.work ∧ (k'.pool.IsDrained → receivedBy e.1 (es ++ later) ++ k.unposted i signal =
      h.due i signal e.1 ++ changes v (valuesFor signal (pushedTo i (trail Hub.step labels h)))) := by
  have staffed := (reachable.run own ran).staffed
  obtain ⟨bound, feeds⟩ := work_of_run works (staffed.catches.trans catches) onward
  refine ⟨by omega, ?_⟩
  intro drained
  have due : k'.due i signal e.1 = k.unposted i signal := by
    rw [Hub.due, WorkerPool.pending_of_isDrained drained, List.nil_append, unposted, feeds, unposted]
  have still' : e ∈ k'.subscribersOf i signal := by
    rw [subscribersOf, feeds]
    exact still
  have all : ∀ l ∈ labels ++ more, l.IsOwn := by
    intro l hl
    rcases List.mem_append.1 hl with hl | hl
    · exact own l hl
    · exact (works l hl).isOwn
  have whole : run Hub.step (labels ++ more) h = some (k', es ++ later) :=
    run_append.2 ⟨k, es, later, ran, onward, rfl⟩
  have pushed : pushedTo i (trail Hub.step (labels ++ more) h) = pushedTo i (trail Hub.step labels h) := by
    rw [trail_append ran, pushedTo, List.flatMap_append, ← pushedTo, ← pushedTo, pushedTo_of_work works,
      List.append_nil]
  obtain ⟨account, -⟩ := received_of_run catches reachable all whole spent still' there known
  rw [due, pushed] at account
  exact account

end Run

/-- What is pending for somebody who has just come is what waits for the signal. -/
theorem Transition.pending_eq_of_awaits (t : h.Transition l r) (reachable : Reachable settings plans h)
    (signal : SignalId) {token : Token} (awaits : h.Awaits token) :
    r.state.pool.pending signal token = (r.state.pool.queued signal).map (·.value) := by
  have uncalled : ((r.state.pool.current? (r.state.pool.shard signal)).map (·.owes token)).getD [] = [] := by
    cases doing : r.state.pool.current? (r.state.pool.shard signal) with
    | none => rfl
    | some d =>
      have stranger : ∀ x ∈ d.waiting, x.1 ≠ token := by
        rintro x hx rfl
        rcases t.current doing with ⟨e, was, leads⟩ | ⟨i, -, all⟩
        · exact (reachable.staffed.listed _ e was x (leads.waiting.subset hx)).1.2 awaits
        · exact (reachable.spent_of_mem (all ▸ hx)).2 awaits
      have nobody : d.waiting.filter (·.1 = token) = [] :=
        List.filter_eq_nil_iff.2 fun x hx => by simpa using stranger x hx
      simp [Delivery.owes, nobody]
  rw [WorkerPool.pending, uncalled, List.nil_append]

/-- Nothing is pending for somebody who has just come, if nothing waits for the signal. -/
theorem Transition.pending_of_awaits (t : h.Transition l r) (reachable : Reachable settings plans h)
    {signal : SignalId} {token : Token} (awaits : h.Awaits token)
    (unqueued : r.state.pool.queued signal = []) : r.state.pool.pending signal token = [] := by
  rw [t.pending_eq_of_awaits reachable signal awaits, unqueued, List.map_nil]

/-- **Whoever subscribes receives every change, once and in order.** Somebody comes to be subscribed to
a signal while nothing waits for it to be delivered, at a hub that catches panics; `v` is the signal's
value then. A push may have changed the signal to `v` just before, and not be done with it: the update
lock keeps nobody from subscribing. Then `v` itself may still be posted, and otherwise nothing is to come.
Whatever happens from there on, as long as the subscription lasts:

* pushes write to the feed what was accepted of them, in order, up to what is yet to be written;
* what the subscriber has received, and what is due to it, are the value still to be posted, if there was
  one, and the changes that the pushes make to `v`;
* if the workers are left to go on they come to rest, after at most so many steps as there is work, and
  then the subscriber has received exactly these, up to what a push is not done with. -/
theorem receives_changes {i : Nat} {signal : SignalId} {token : Token} {handler : H} {k : Hub V H R}
    {labels : List (HubLabel V H R)} {es : List (HubEffect V H)} (catches : settings.catches = true)
    (reachable : Reachable settings plans h) (own : l.IsOwn) (made : h.step l = some r)
    (new : (token, handler) ∉ h.subscribersOf i signal)
    (subscribed : (token, handler) ∈ r.state.subscribersOf i signal)
    (unqueued : r.state.pool.queued signal = []) (own' : ∀ l ∈ labels, l.IsOwn)
    (ran : run Hub.step labels r.state = some (k, es)) (still : (token, handler) ∈ k.subscribersOf i signal) :
    ∃ v, r.state.cached? signal = some v ∧
      (r.state.unposted i signal = [] ∨ r.state.unposted i signal = [v]) ∧
      let past := trail Hub.step labels r.state
      let received := r.state.unposted i signal ++ changes v (valuesFor signal (pushedTo i past))
      r.state.yetToPush i ++ acceptedBy i past = pushedTo i past ++ k.yetToPush i ∧
      receivedBy token es ++ k.due i signal token = received ∧
      (∀ more k' later, (∀ l ∈ more, l.IsWork) → run Hub.step more k = some (k', later) →
        more.length ≤ k.work ∧
          (k'.pool.IsDrained → receivedBy token (es ++ later) ++ k.unposted i signal = received)) ∧
      ∃ more k' later, (∀ l ∈ more, l.IsWork) ∧ run Hub.step more k = some (k', later) ∧
        k'.pool.IsDrained := by
  have t := transition_of_step made
  have after := reachable.step own made
  have nothing := t.pending_of_awaits reachable ((t.lists_at subscribed).resolve_left new) unqueued
  have spent := after.spent_of_mem subscribed
  obtain ⟨f, there, o, ho, -⟩ := mem_subscribersOf.1 subscribed
  have known : f.cached? signal = some o.gate.value := by simp [Feed.cached?, ho]
  have cached := after.cached?_eq there (Option.isSome_of_eq_some ho)
  have due : r.state.due i signal token = r.state.unposted i signal := by
    rw [Hub.due, nothing, List.nil_append]
  refine ⟨o.gate.value, cached.trans known, ?_, ?_⟩
  · rw [unposted_eq there]
    exact Feed.valuesFor_news (after.orderly there) known
  intro past received
  obtain ⟨account, f', there', -, wrote⟩ := received_of_run catches after own' ran spent still there known
  rw [due] at account
  refine ⟨?_, account, ?_, ?_⟩
  · rw [yetToPush, yetToPush, there, there']
    exact wrote
  · intro more k' later works onward
    have rest := received_of_drain catches after own' ran spent still there known works onward
    rwa [due] at rest
  · have left := after.run own' ran
    obtain ⟨more, k', later, works, onward, drained, -⟩ := exists_drain catches left (left.open_of_mem still) rfl
    exact ⟨more, k', later, works, onward, drained⟩

end Step

/-! ### The lamp -/

/-- The lamp is switched off and on again by one push, and the first change is delivered. -/
def lampSwitching : List (HubLabel Value Unit Unit) :=
  [.invoke 0 1 (),
    .move (.advance 0 (.pushDecoded 0 (.ok ⟨[Lamp.emission true, Lamp.emission false, Lamp.emission true]⟩))),
    .move (.advance 0 (.enter 0)), .move (.advance 0 .write), .move (.advance 0 .write),
    .move (.advance 0 .look), .move (.advance 0 .post), .move (.take 0), .move (.call 0),
    .move (.advance 0 .write), .move (.advance 0 .look), .move (.returned 0 true), .move (.finish 0)]

/-- Who subscribed to the shining lamp has been told that it went dark, and is about to be told that it
shines again: the push has seen that there is somebody, and has yet to post the change. -/
theorem lamp_is_reported :
    ∃ h past r k es, run Hub.step (Lamp.subscription.take 7) Lamp.hub = some (h, past) ∧
      h.step (.hear 0 (.registered (.ok ⟨1⟩))) = some r ∧ run Hub.step lampSwitching r.state = some (k, es) ∧
      k.subscribersOf 0 Lamp.key.id = [(⟨1⟩, ())] ∧
      k.unposted 0 Lamp.key.id = [.truth true] ∧
      receivedBy ⟨1⟩ es ++ k.due 0 Lamp.key.id ⟨1⟩ = [.truth false, .truth true] := by
  obtain ⟨h, past, r, k, es, ran, made, onward, nobody, one, unqueued, value, nothing, still, left, pushed⟩ :
      ∃ h past r k es, run Hub.step (Lamp.subscription.take 7) Lamp.hub = some (h, past) ∧
        h.step (.hear 0 (.registered (.ok ⟨1⟩))) = some r ∧ run Hub.step lampSwitching r.state = some (k, es) ∧
        h.subscribersOf 0 Lamp.key.id = [] ∧ r.state.subscribersOf 0 Lamp.key.id = [(⟨1⟩, ())] ∧
        r.state.pool.queued Lamp.key.id = [] ∧ r.state.cached? Lamp.key.id = some (.truth true) ∧
        r.state.unposted 0 Lamp.key.id = [] ∧ k.subscribersOf 0 Lamp.key.id = [(⟨1⟩, ())] ∧
        k.unposted 0 Lamp.key.id = [.truth true] ∧
        pushedTo 0 (trail Hub.step lampSwitching r.state) =
          [Lamp.emission true, Lamp.emission false, Lamp.emission true] :=
    ⟨_, _, _, _, _, rfl, rfl, rfl, rfl, rfl, rfl, rfl, rfl, rfl, rfl, rfl⟩
  have assembled : assemble {} [Lamp.plan] = .ok Lamp.hub := rfl
  have reachable := (Reachable.assembled assembled).run
    (by simp [Lamp.subscription, HubLabel.IsOwn]) ran
  have own : (HubLabel.hear 0 (.registered (.ok ⟨1⟩)) : HubLabel Value Unit Unit).IsOwn := trivial
  obtain ⟨v, cached, -, -, account, -⟩ := receives_changes rfl reachable own made
    (nobody ▸ List.not_mem_nil) (one ▸ List.mem_singleton_self _) unqueued
    (by simp [lampSwitching, HubLabel.IsOwn]) onward (still ▸ List.mem_singleton_self _)
  obtain rfl : v = .truth true := Option.some.inj (cached.symm.trans value)
  exact ⟨h, past, r, k, es, ran, made, onward, still, left, by rw [account, nothing, pushed]; rfl⟩

/-! ### Told what one knows

What reaches a subscriber besides the changes made to the value that it found: the change to that very
value, if a push is between its gate and its posting; and, if the same handler was subscribed before, a
delivery that had begun by then. Two handlers take turns at the lamp, `false` and `true`. -/

/-- What a handler is called with in the course of some effects, through whichever subscription. -/
def heardBy [DecidableEq H] (handler : H) (es : List (HubEffect V H)) : List V :=
  es.filterMap fun
    | .called _ h _ value => if h = handler then some value else none
    | _ => none

/-- A hub over one lamp, for two handlers. -/
def lampShared : Hub Value Bool Unit := { feeds := [.ofPlan Lamp.plan], pool := .ofSize 1 true }

/-- Handler `false` subscribes to the lamp, which shines. -/
def lampTaken : List (HubLabel Value Bool Unit) :=
  [.move (.draw Lamp.key false), .move (.subscribe ⟨1⟩), .hear 0 (.queried (.ok ())),
    .move (.advance 0 (.decoded (.ok ⟨[Lamp.emission true]⟩))), .move (.advance 0 .seed), .move (.advance 0 .write),
    .move (.advance 0 .settle), .hear 0 (.registered (.ok ⟨1⟩))]

/-- The lamp is switched off by a push, which is through the gate. -/
def lampSwitchedOff : List (HubLabel Value Bool Unit) :=
  [.invoke 0 1 (), .move (.advance 0 (.pushDecoded 0 (.ok ⟨[Lamp.emission false]⟩))),
    .move (.advance 0 (.enter 0)), .move (.advance 0 .write)]

/-- The change is looked after and posted, and the push is done. -/
def lampPosted : List (HubLabel Value Bool Unit) :=
  [.move (.advance 0 .look), .move (.advance 0 .post), .move (.advance 0 .settle), .move (.advance 0 (.leave 0))]

/-- The change is delivered to two subscribers. -/
def lampDelivered : List (HubLabel Value Bool Unit) :=
  [.move (.take 0), .move (.call 0), .move (.returned 0 false), .move (.call 0), .move (.returned 0 false),
    .move (.finish 0)]

/-- **A handler may be called with the value that it found**, though nothing waited to be delivered when it
had subscribed, and no push made a change from there on: because it subscribed while the push that made
the last one had yet to post it; or because it was subscribed already, and a delivery had begun. -/
theorem lamp_tells_what_is_known :
    assemble {} [Lamp.plan] = .ok lampShared ∧
    (∃ h past r k es, run Hub.step (lampTaken ++ lampSwitchedOff ++ [.move (.draw Lamp.key true)]) lampShared =
        some (h, past) ∧
      h.step (.move (.subscribe ⟨2⟩)) = some r ∧ r.answer = some .done ∧
      r.state.pool.queued Lamp.key.id = [] ∧ r.state.cached? Lamp.key.id = some (.truth false) ∧
      run Hub.step (lampPosted ++ lampDelivered) r.state = some (k, es) ∧
      k.subscribersOf 0 Lamp.key.id = [(⟨1⟩, false), (⟨2⟩, true)] ∧ k.work = 0 ∧
      pushedTo 0 (trail Hub.step (lampPosted ++ lampDelivered) r.state) = [] ∧ heardBy true es = [.truth false]) ∧
    ∃ h past r k es,
      run Hub.step (lampTaken ++ [.move (.draw Lamp.key true), .move (.subscribe ⟨2⟩)] ++ lampSwitchedOff ++
          lampPosted ++ lampDelivered.take 2 ++
          [.move (.unsubscribe Lamp.key.id ⟨2⟩), .move (.draw Lamp.key true)]) lampShared = some (h, past) ∧
      h.step (.move (.subscribe ⟨3⟩)) = some r ∧ r.answer = some .done ∧
      r.state.pool.queued Lamp.key.id = [] ∧ r.state.cached? Lamp.key.id = some (.truth false) ∧
      run Hub.step (lampDelivered.drop 2) r.state = some (k, es) ∧
      k.subscribersOf 0 Lamp.key.id = [(⟨1⟩, false), (⟨3⟩, true)] ∧ k.work = 0 ∧
      pushedTo 0 (trail Hub.step (lampDelivered.drop 2) r.state) = [] ∧ heardBy true es = [.truth false] :=
  ⟨rfl, ⟨_, _, _, _, _, rfl, rfl, rfl, rfl, rfl, rfl, rfl, rfl, rfl, rfl⟩,
    _, _, _, _, _, rfl, rfl, rfl, rfl, rfl, rfl, rfl, rfl, rfl, rfl⟩

end Hub

end LazyHub
