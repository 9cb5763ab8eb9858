import LazyHub.Proofs.Hub.Delivery
import LazyHub.Proofs.Hub.Operations

/-!
# Silence after a subscription has ended

A subscription ends when it is unsubscribed, when its guard is dropped, when the hub is shut down, and when the last
handle on the hub goes (`Hub.Ends`). What waits in the workers' queues outlives it, and so does a delivery that has
found it among those to be called. But who is to be called is looked up when a delivery starts, so of all this only
the delivery under way can still call it, and it does so at most once (`Hub.silent_after_end`).

* `Hub.Addressed` is what is known of a token whose subscription is or was to a signal: deliveries that are yet to
  call it are for this signal.
* `Transition.received_sublist` is the account of one step, once the token is nobody's any more (`Hub.Unlisted`).

A guard holds no handle on the hub. When it is dropped after the last handle is gone it does nothing
(`Hub.DropsGuard.late`); the subscription then ends when the closing of the hub comes to its feed, and is called as
ever until then (`Hub.late_guard_is_called`).
-/

namespace LazyHub

variable {V H R : Type}

namespace WorkerPool

/-- What the delivery under way for a signal is yet to call a subscriber with. -/
def owed (p : WorkerPool (Notice V) (Delivery V H)) (signal : SignalId) (token : Token) : List V :=
  ((p.current? (p.shard signal)).map (·.owes token)).getD []

variable {p q : WorkerPool (Notice V) (Delivery V H)} {signal : SignalId} {token : Token}

theorem owed_congr (shard : q.shard signal = p.shard signal)
    (current : q.current? (p.shard signal) = p.current? (p.shard signal)) : q.owed signal token = p.owed signal token := by
  rw [owed, shard, current, owed]

theorem owed_of_current {d : Delivery V H} (doing : p.current? (p.shard signal) = some d) :
    p.owed signal token = d.owes token := by
  rw [owed, doing]
  rfl

theorem owed_of_idle (idle : p.current? (p.shard signal) = none) : p.owed signal token = [] := by
  rw [owed, idle]
  rfl

theorem owed_setCurrent {d e : Delivery V H} (doing : p.current? (p.shard signal) = some d) :
    (p.setCurrent (p.shard signal) e).owed signal token = e.owes token := by
  refine owed_of_current ?_
  rw [(alike_setCurrent ..).shard, current?_setCurrent doing, if_pos rfl]

theorem owed_setCurrent_of_other {w : Nat} {d e : Delivery V H} (doing : p.current? w = some d)
    (other : p.shard signal ≠ w) : (p.setCurrent w e).owed signal token = p.owed signal token := by
  refine owed_congr ((alike_setCurrent ..).shard signal) ?_
  rw [current?_setCurrent doing, if_neg other]

/-- A worker that ends its delivery has called everyone. -/
theorem owed_finish {w : Nat} {d : Delivery V H} (doing : p.current? w = some d) (all : d.waiting = []) :
    (p.finish w).owed signal token = p.owed signal token := by
  have shard : (p.finish w).shard signal = p.shard signal := (alike_finish ..).shard signal
  by_cases here : p.shard signal = w
  · subst here
    have idle : (p.finish (p.shard signal)).current? ((p.finish (p.shard signal)).shard signal) = none := by
      rw [shard, current?_finish doing, if_pos rfl]
    rw [owed_of_idle idle, owed_of_current doing, Delivery.owes, all]
    rfl
  · refine owed_congr shard ?_
    rw [current?_finish doing, if_neg here]

/-- Of what a pool owes nothing is added by ending a worker. -/
theorem owed_collapse_sublist (w : Nat) : ((p.collapse w).owed signal token).Sublist (p.owed signal token) := by
  have shard : (p.collapse w).shard signal = p.shard signal := by rw [WorkerPool.shard, size_collapse, WorkerPool.shard]
  cases doing : (p.collapse w).current? (p.shard signal) with
  | none =>
    rw [owed_of_idle (shard ▸ doing)]
    exact List.nil_sublist _
  | some d => rw [owed_of_current (shard ▸ doing), owed_of_current (current?_of_collapse doing)]

theorem mem_owed {v : V} : v ∈ p.owed signal token ↔
    ∃ d, p.current? (p.shard signal) = some d ∧ d.value = v ∧ token ∈ d.waiting.map (·.1) := by
  cases doing : p.current? (p.shard signal) with
  | none => simp [owed_of_idle doing]
  | some d =>
    rw [owed_of_current doing, Delivery.owes]
    simp only [List.mem_map, List.mem_filter, decide_eq_true_eq, Option.some.injEq]
    constructor
    · rintro ⟨e, ⟨mem, same⟩, value⟩
      exact ⟨d, rfl, value, e, mem, same⟩
    · rintro ⟨_, rfl, value, e, mem, same⟩
      exact ⟨e, ⟨mem, same⟩, value⟩

end WorkerPool

/-- Whoever is called once in a delivery is owed its value once. -/
theorem Delivery.length_owes_le {d : Delivery V H} (nodup : (d.waiting.map (·.1)).Nodup) (token : Token) :
    (d.owes token).length ≤ 1 := by
  have count : (d.owes token).length = (d.waiting.map (·.1)).count token := by
    rw [Delivery.owes, List.length_map, ← List.countP_eq_length_filter, List.count, List.countP_map]
    exact List.countP_congr fun e _ => by simp
  rw [count]
  exact List.nodup_iff_count_le_one.1 nodup token

namespace Hub

variable [SignalValue V]

/-! ### Who is yet to be called -/

section Called

variable {settings : Settings} {plans : List (FeedPlan V)} {h k : Hub V H R} {l : HubLabel V H R} {r : Result V H R}
  {labels : List (HubLabel V H R)} {es : List (HubEffect V H)} {signal : SignalId} {token : Token}

/-- No delivery calls anybody twice. -/
theorem Reachable.nodup_waiting (reachable : Reachable settings plans h) {w : Nat} {d : Delivery V H}
    (doing : h.pool.current? w = some d) : (d.waiting.map (·.1)).Nodup := by
  induction reachable generalizing w d with
  | assembled start =>
    obtain ⟨-, rfl⟩ := eq_of_assemble start
    cases (WorkerPool.current?_ofSize _ _ w).symm.trans doing
  | step before own made ih =>
    rcases (transition_of_step made).current doing with ⟨e, was, leads⟩ | ⟨i, -, all⟩
    · exact (leads.waiting.map _).sublist.nodup (ih was)
    · rw [all, subscribersOf]
      split
      · exact Subscribers.tokens_nodup _
      · exact List.nodup_nil

theorem Reachable.length_owed_le (reachable : Reachable settings plans h) (signal : SignalId) (token : Token) :
    (h.pool.owed signal token).length ≤ 1 := by
  cases doing : h.pool.current? (h.pool.shard signal) with
  | none =>
    rw [WorkerPool.owed_of_idle doing]
    exact Nat.zero_le _
  | some d =>
    rw [WorkerPool.owed_of_current doing]
    exact Delivery.length_owes_le (reachable.nodup_waiting doing) token

/-- **A token whose subscription is to a signal, or was.** -/
structure Addressed (h : Hub V H R) (signal : SignalId) (token : Token) : Prop where
  /-- Its subscription was added. -/
  spent : h.Spent token
  /-- It stands under no other signal. -/
  listed : ∀ i s handler, (token, handler) ∈ h.subscribersOf i s → s = signal
  /-- A delivery that is yet to call it is for this signal. -/
  called : ∀ w d, h.pool.current? w = some d → token ∈ d.waiting.map (·.1) → d.signal = signal

omit [SignalValue V] in
/-- Nobody is subscribed under a token. -/
def Unlisted (h : Hub V H R) (token : Token) : Prop := ∀ i s handler, (token, handler) ∉ h.subscribersOf i s

theorem Reachable.addressed (reachable : Reachable settings plans h) {i : Nat} {handler : H}
    (mem : (token, handler) ∈ h.subscribersOf i signal) : h.Addressed signal token where
  spent := reachable.spent_of_mem mem
  listed _ _ _ mem' := (reachable.single mem' mem rfl).2
  called w d doing waits := by
    obtain ⟨e, he, same⟩ := List.mem_map.1 waits
    exact ((reachable.staffed.listed w d doing e he).2 i signal _ mem same.symm).symm

theorem Addressed.step (a : h.Addressed signal token) (t : h.Transition l r) : r.state.Addressed signal token where
  spent := t.spent a.spent
  listed i s handler mem := a.listed i s handler ((t.lists_at mem).resolve_right a.spent.2)
  called w d doing waits := by
    rcases t.current doing with ⟨e, was, leads⟩ | ⟨i, -, all⟩
    · exact leads.signal ▸ a.called w e was ((leads.waiting.map _).subset waits)
    · rw [all] at waits
      obtain ⟨⟨_, handler⟩, mem, rfl⟩ := List.mem_map.1 waits
      exact a.listed i _ handler mem

theorem Addressed.run (a : h.Addressed signal token) (ran : LazyHub.run Hub.step labels h = some (k, es)) :
    k.Addressed signal token :=
  run_keeps (P := fun g => g.Addressed signal token) (fun _ _ _ _ a made => a.step (transition_of_step made)) ran a

/-- Whose subscription has ended does not come to be subscribed again. -/
theorem Unlisted.run (u : h.Unlisted token) (spent : h.Spent token)
    (ran : LazyHub.run Hub.step labels h = some (k, es)) : k.Unlisted token :=
  fun i s handler mem => u i s handler (lists_of_spent (e := (token, handler)) ran spent mem)

/-- **The account of one step.** What is received in a step under a token that is nobody's, and what the delivery
under way owes after it, the delivery under way owed before. -/
theorem Transition.received_sublist (t : h.Transition l r) (reachable : Reachable settings plans h)
    (a : h.Addressed signal token) (u : h.Unlisted token) :
    (receivedBy token r.effects ++ r.state.pool.owed signal token).Sublist (h.pool.owed signal token) := by
  have idle : ∀ {p : WorkerPool (Notice V) (Delivery V H)} {es : List (HubEffect V H)}, receivedBy token es = [] →
      p.shard signal = h.pool.shard signal → p.current? (h.pool.shard signal) = h.pool.current? (h.pool.shard signal) →
      (receivedBy token es ++ p.owed signal token).Sublist (h.pool.owed signal token) := by
    intro p es silent shard current
    rw [silent, List.nil_append, WorkerPool.owed_congr shard current]
  have marked : ∀ {p : WorkerPool (Notice V) (Delivery V H)}, WorkerPool.Marks h.pool p →
      (receivedBy token ([] : List (HubEffect V H)) ++ p.owed signal token).Sublist (h.pool.owed signal token) :=
    fun marks => idle rfl (marks.alike.shard signal) (marks.current _)
  have collapsed : ∀ (w : Nat) {es : List (HubEffect V H)}, receivedBy token es = [] →
      (receivedBy token es ++ (h.pool.collapse w).owed signal token).Sublist (h.pool.owed signal token) := by
    intro w es silent
    rw [silent, List.nil_append]
    exact WorkerPool.owed_collapse_sublist w
  cases t with
  | @feed l i fl g f fr serves =>
    have posted := serves.pool_eq ▸ posted_afterFeed g i fr
    exact idle (receivedBy_absorbAll ..) (posted.alike.shard signal) (posted.current _)
  | @take w p taken =>
    obtain ⟨alike, takes⟩ := WorkerPool.takes_of_take taken
    cases takes with
    | job s notice rest free head queue current =>
      by_cases here : h.pool.shard signal = w
      · -- the delivery has just looked up who is subscribed
        have nobody : (h.subscribersOf notice.feed s).filter (·.1 = token) = [] := by
          refine List.filter_eq_nil_iff.2 ?_
          rintro ⟨t, handler⟩ mem same
          obtain rfl : t = token := of_decide_eq_true same
          exact u _ _ _ mem
        have doing := current w
        rw [if_pos rfl, ← here, ← alike.shard] at doing
        rw [WorkerPool.owed_of_current doing, Delivery.owes, nobody]
        exact List.nil_sublist _
      · exact idle rfl (alike.shard signal) (by rw [current, if_neg here])
    | marker _ _ _ _ current => exact idle rfl (alike.shard signal) (current _)
  | @call w s value t handler rest doing =>
    by_cases here : h.pool.shard signal = w
    · subst here
      rw [WorkerPool.owed_setCurrent doing, WorkerPool.owed_of_current doing]
      by_cases named : t = token <;> simp [receivedBy, named, Delivery.owes]
    · -- whoever is to be called is called by the worker of its signal
      have stranger : t ≠ token := by
        rintro rfl
        have same := a.called w _ doing (by simp)
        exact here (same ▸ (reachable.staffed.placed w _ doing).symm)
      rw [WorkerPool.owed_setCurrent_of_other doing here]
      simp [receivedBy, stranger]
  | @returned w panicked s value rest t handler doing =>
    have silent : receivedBy token (if panicked then [.noted (.subscriberPanicked t s)] else [] :
        List (HubEffect V H)) = [] := by
      cases panicked <;> rfl
    rw [silent, List.nil_append]
    by_cases here : h.pool.shard signal = w
    · subst here
      rw [WorkerPool.owed_setCurrent doing, WorkerPool.owed_of_current doing]
      exact List.Sublist.refl _
    · rw [WorkerPool.owed_setCurrent_of_other doing here]
  | @collapsed w => exact collapsed w rfl
  | finish doing =>
    rw [WorkerPool.owed_finish doing rfl]
    exact List.Sublist.refl _
  | @stop w => exact collapsed w rfl
  | startFlush => exact marked (WorkerPool.marks_startFlush _)
  | mark made => exact marked (WorkerPool.marks_of_mark made)
  | resolve made => exact marked (WorkerPool.marks_of_resolve made)
  | _ => exact idle rfl rfl rfl

/-- **The account of a run.** -/
theorem received_sublist_of_run (reachable : Reachable settings plans h) (own : ∀ l ∈ labels, l.IsOwn)
    (ran : LazyHub.run Hub.step labels h = some (k, es)) (a : h.Addressed signal token) (u : h.Unlisted token) :
    (receivedBy token es ++ k.pool.owed signal token).Sublist (h.pool.owed signal token) := by
  induction labels generalizing h es with
  | nil =>
    cases ran
    exact List.Sublist.refl _
  | cons l rest ih =>
    obtain ⟨r, later, made, onward, rfl⟩ := run_cons.1 ran
    have t := transition_of_step made
    have next := ih (reachable.step (own l List.mem_cons_self) made) (fun l hl => own l (List.mem_cons_of_mem _ hl))
      onward (a.step t) (u.run a.spent (run_singleton made))
    rw [receivedBy_append, List.append_assoc]
    exact (next.append_left _).trans (t.received_sublist reachable a u)

/-- A delivery that is yet to call a token that is nobody's has been under way since then. -/
theorem leadsTo_of_run (ran : LazyHub.run Hub.step labels h = some (k, es)) (spent : h.Spent token) (u : h.Unlisted token)
    {w : Nat} {d : Delivery V H} (doing : k.pool.current? w = some d) (waits : token ∈ d.waiting.map (·.1)) :
    ∃ e, h.pool.current? w = some e ∧ e.LeadsTo d := by
  induction labels generalizing h es with
  | nil =>
    cases ran
    exact ⟨d, doing, .refl d⟩
  | cons l rest ih =>
    obtain ⟨r, later, made, onward, rfl⟩ := run_cons.1 ran
    have t := transition_of_step made
    obtain ⟨c, was, leads⟩ := ih onward (t.spent spent) (u.run spent (run_singleton made))
    rcases t.current was with ⟨e, before, first⟩ | ⟨i, -, all⟩
    · exact ⟨e, before, first.trans leads⟩
    · obtain ⟨⟨_, handler⟩, mem, rfl⟩ := List.mem_map.1 ((leads.waiting.map _).subset waits)
      exact absurd (all ▸ mem) (u i c.signal handler)

/-- **Silence.** Whatever happens from here on, the subscription that a token stood for

* is called at most once,
* with the value of a delivery for its signal that is under way here and is yet to call it,
* and a delivery that is yet to call it then is that delivery still, and has not done so;
* nobody comes to be subscribed under the token. -/
def IsSilent (h : Hub V H R) (signal : SignalId) (token : Token) : Prop :=
  ∀ labels k es, (∀ l ∈ labels, l.IsOwn) → LazyHub.run Hub.step labels h = some (k, es) →
    (receivedBy token es).length ≤ 1 ∧
    (∀ v ∈ receivedBy token es,
      ∃ w d, h.pool.current? w = some d ∧ d.signal = signal ∧ d.value = v ∧ token ∈ d.waiting.map (·.1)) ∧
    (∀ w d, k.pool.current? w = some d → token ∈ d.waiting.map (·.1) →
      receivedBy token es = [] ∧ ∃ e, h.pool.current? w = some e ∧ e.signal = signal ∧ e.LeadsTo d) ∧
    k.Unlisted token

theorem isSilent_of_unlisted (reachable : Reachable settings plans h) (a : h.Addressed signal token)
    (u : h.Unlisted token) : h.IsSilent signal token := by
  intro labels k es own ran
  have account := received_sublist_of_run reachable own ran a u
  have once := reachable.length_owed_le signal token
  refine ⟨?_, fun v called => ?_, fun w d doing waits => ?_, u.run a.spent ran⟩
  · have := account.length_le
    rw [List.length_append] at this
    omega
  · obtain ⟨d, doing, value, waits⟩ := WorkerPool.mem_owed.1 (account.subset (List.mem_append_left _ called))
    exact ⟨_, d, doing, a.called _ d doing waits, value, waits⟩
  · obtain ⟨e, was, leads⟩ := leadsTo_of_run ran a.spent u doing waits
    have same := a.called w e was ((leads.waiting.map _).subset waits)
    have placed := (reachable.run own ran).staffed.placed w d doing
    rw [← leads.signal, same] at placed
    have owes : d.value ∈ k.pool.owed signal token := WorkerPool.mem_owed.2 ⟨d, placed ▸ doing, rfl, waits⟩
    have := account.length_le
    rw [List.length_append] at this
    have := List.length_pos_of_mem owes
    exact ⟨List.length_eq_zero_iff.1 (by omega), e, was, same, leads⟩

end Called

/-! ### The end of a subscription -/

section Ends

/-- **The shutdown of a hub**, from one of its feeds on: feed after feed is waited for and shut down. -/
inductive ShutsDown : Nat → Hub V H R → List (HubLabel V H R) → Hub V H R → Prop where
  /-- No feed is left. -/
  | done {i : Nat} {h : Hub V H R} (all : h.feeds.length ≤ i) : ShutsDown i h [] h
  /-- The next feed is waited for and shut down. -/
  | next {i : Nat} {h g k m : Hub V H R} {before own rest : List (HubLabel V H R)} {es es' : List (HubEffect V H)}
      {a : Answer} (waited : LazyHub.run Hub.step before h = some (g, es))
      (fin : Finishes i g (.move (.shutdown i) :: own) k es' a) (onward : ShutsDown (i + 1) k rest m) :
      ShutsDown i h (before ++ (.move (.shutdown i) :: own) ++ rest) m

/-- **The drop of a guard.** A guard has no handle on its hub. If anybody has one it takes a handle, unsubscribes,
and returns when it has let go of its handle; otherwise it does nothing. -/
inductive DropsGuard (i : Nat) (signal : SignalId) (token : Token) :
    Hub V H R → List (HubLabel V H R) → Hub V H R → Prop where
  /-- It takes a handle and unsubscribes. -/
  | inTime {h g k m : Hub V H R} {r : Result V H R} {before own after : List (HubLabel V H R)}
      {es es' es'' : List (HubEffect V H)} {a : Answer} (taken : h.step (.move .clone) = some r)
      (waited : LazyHub.run Hub.step before r.state = some (g, es))
      (fin : Finishes i g (.move (.unsubscribe signal token) :: own) k es' a)
      (left : LazyHub.run Hub.step after k = some (m, es'')) :
      DropsGuard i signal token h
        (.move .clone :: (before ++ (.move (.unsubscribe signal token) :: own) ++ after)) m
  /-- There is no handle to be had. -/
  | late {h : Hub V H R} (refused : h.step (.move .clone) = none) : DropsGuard i signal token h [] h

/-- **What ends a subscription**, from the call to its return. Other steps come in between. -/
inductive Ends (i : Nat) (signal : SignalId) (token : Token) :
    Hub V H R → List (HubLabel V H R) → Hub V H R → Prop where
  /-- It is unsubscribed with its token. -/
  | unsubscribed {h g k : Hub V H R} {before own : List (HubLabel V H R)} {es es' : List (HubEffect V H)} {a : Answer}
      (waited : LazyHub.run Hub.step before h = some (g, es))
      (fin : Finishes i g (.move (.unsubscribe signal token) :: own) k es' a) :
      Ends i signal token h (before ++ .move (.unsubscribe signal token) :: own) k
  /-- Its guard is dropped while somebody has a handle on the hub. -/
  | guardDropped {h k : Hub V H R} {labels : List (HubLabel V H R)} (held : 0 < h.handles)
      (drops : DropsGuard i signal token h labels k) : Ends i signal token h labels k
  /-- The hub is shut down. -/
  | shutDown {h k : Hub V H R} {labels : List (HubLabel V H R)} (shuts : ShutsDown 0 h labels k) :
      Ends i signal token h labels k
  /-- The last handle is dropped, and the hub closes. -/
  | closed {h k : Hub V H R} {labels : List (HubLabel V H R)} {es : List (HubEffect V H)} (last : h.life = .held 1)
      (ran : LazyHub.run Hub.step (.move .drop :: labels) h = some (k, es)) (shut : k.life = .closed) :
      Ends i signal token h (.move .drop :: labels) k

variable {settings : Settings} {plans : List (FeedPlan V)} {h g k m : Hub V H R} {l : HubLabel V H R}
  {r : Result V H R} {i : Nat} {labels own : List (HubLabel V H R)} {es : List (HubEffect V H)} {signal : SignalId}
  {token : Token} {a : Answer}

/-- Once an unsubscription has entered the feed nobody is subscribed under the token. -/
theorem Transition.unlisted (t : h.Transition (.move (.unsubscribe signal token)) r)
    (reachable : Reachable settings plans h) (addressed : h.Addressed signal token) : r.state.Unlisted token := by
  intro j s handler mem
  obtain rfl := (addressed.step t).listed j s handler mem
  obtain ⟨f', there', lists⟩ := mem_subscribersOf.1 mem
  cases t with
  | @feed _ i _ g f fr serves there step =>
    cases serves with
    | unsubscribe held routes =>
      rw [afterFeed_feeds, List.getElem?_set] at there'
      split at there'
      · split at there'
        · cases there'
          exact (Feed.transition_of_step step).not_lists_of_unsubscribe handler lists
        · cases there'
      · -- no other feed has the signal
        rename_i other
        obtain ⟨⟨_, kind, o⟩, found, rfl⟩ := Option.map_eq_some_iff.1 routes
        obtain ⟨f, there, known⟩ := outlet?_of_find? found
        obtain ⟨o', known', -⟩ := lists
        exact other (reachable.same_feed there there' (Option.isSome_of_eq_some known) (Option.isSome_of_eq_some known'))

/-- When an unsubscription returns nobody is subscribed under the token. -/
theorem Finishes.unlisted (fin : Finishes i g (.move (.unsubscribe signal token) :: own) k es a)
    (reachable : Reachable settings plans g) (addressed : g.Addressed signal token) : k.Unlisted token := by
  obtain ⟨r, later, made, onward, -⟩ := run_cons.1 fin.run
  have t := transition_of_step made
  exact (t.unlisted reachable addressed).run (t.spent addressed.spent) onward

/-- A feed that is being shut down stays so as long as its state lock is held. -/
theorem Transition.isWoundDown_at (t : h.Transition l r) (reachable : Reachable settings plans h) (own : l.IsOwn)
    {f : Feed V H R} (there : h.feeds[i]? = some f) (busy : f.holder ≠ none) (down : f.IsWoundDown) :
    ∃ f', r.state.feeds[i]? = some f' ∧ f'.IsWoundDown := by
  cases t with
  | @feed l j fl g f' fr serves there' step =>
    rw [afterFeed_feeds, serves.feeds_eq]
    by_cases eq : j = i
    · subst eq
      obtain rfl := Option.some.inj (there.symm.trans there')
      refine ⟨fr.state, by rw [List.getElem?_set_self', there]; rfl, ?_⟩
      have t := Feed.transition_of_step step
      refine t.isWoundDown (reachable.sound.balanced f (List.mem_of_getElem? there)) down ?_ (serves.unhandled own).2
      rintro request rfl
      exact absurd t.free_of_enter busy
    · exact ⟨f, by rw [List.getElem?_set_ne eq, there], down⟩
  | letGo closing quiet => exact absurd (free_of_isQuiet quiet (List.mem_of_getElem? there)) busy
  | _ => exact ⟨f, there, down⟩

/-- An operation that shuts a feed down leaves it so. -/
theorem Finishes.isWoundDown (fin : Finishes i h labels k es a) (reachable : Reachable settings plans h)
    (own : ∀ l ∈ labels, l.IsOwn) {f : Feed V H R} (there : h.feeds[i]? = some f) (busy : f.holder ≠ none)
    (down : f.IsWoundDown) : ∃ f', k.feeds[i]? = some f' ∧ f'.holder = none ∧ f'.IsWoundDown := by
  induction fin generalizing f with
  | last made _ there' free =>
    obtain ⟨f', after, down'⟩ := (transition_of_step made).isWoundDown_at reachable (own _ List.mem_cons_self) there busy down
    obtain rfl := Option.some.inj (there'.symm.trans after)
    exact ⟨_, there', free, down'⟩
  | more made there' busy' onward ih =>
    obtain ⟨f', after, down'⟩ := (transition_of_step made).isWoundDown_at reachable (own _ List.mem_cons_self) there busy down
    obtain rfl := Option.some.inj (there'.symm.trans after)
    exact ih (reachable.step (own _ List.mem_cons_self) made) (fun l hl => own l (List.mem_cons_of_mem _ hl)) there' busy' down'

/-- When the shutdown of a feed returns nobody is subscribed to its signals. -/
theorem Finishes.isBare (fin : Finishes i g (.move (.shutdown i) :: own) k es a)
    (reachable : Reachable settings plans g) (all : ∀ l ∈ HubLabel.move (.shutdown i) :: own, l.IsOwn) :
    ∃ f, k.feeds[i]? = some f ∧ f.IsBare := by
  have entered : ∀ {r : Result V H R}, g.step (.move (.shutdown i)) = some r → ∀ {f : Feed V H R},
      r.state.feeds[i]? = some f → f.holder ≠ none ∧ f.IsWoundDown := by
    intro r made f there
    cases transition_of_step made with
    | @feed _ _ _ _ e fr serves first step =>
      cases serves
      rw [afterFeed_feeds, List.getElem?_set_self', first] at there
      cases there
      have t := Feed.transition_of_step step
      refine ⟨?_, t.isWoundDown_of_shutdown⟩
      cases t with
      | content _ _ content => exact content.elim
      | shutdown => simp
  cases fin with
  | last made _ there free => exact absurd free (entered made there).1
  | more made there busy onward =>
    have reached := reachable.step (all _ List.mem_cons_self) made
    obtain ⟨f, after, free, down⟩ := onward.isWoundDown reached (fun l hl => all l (List.mem_cons_of_mem _ hl)) there busy
      (entered made there).2
    have balanced := ((reached.run (fun l hl => all l (List.mem_cons_of_mem _ hl)) onward.run).sound.balanced f
      (List.mem_of_getElem? after))
    exact ⟨f, after, balanced.bare free (down.2 free)⟩

theorem ShutsDown.run (shuts : ShutsDown i h labels m) : ∃ es, LazyHub.run Hub.step labels h = some (m, es) := by
  induction shuts with
  | done => exact ⟨[], rfl⟩
  | next waited fin onward ih =>
    obtain ⟨es, ran⟩ := ih
    exact ⟨_, run_append.2 ⟨_, _, _, run_append.2 ⟨_, _, _, waited, fin.run, rfl⟩, ran, rfl⟩⟩

/-- When a shutdown returns nobody is subscribed who was so when it was called. -/
theorem ShutsDown.unlisted (shuts : ShutsDown i h labels m) (reachable : Reachable settings plans h)
    (own : ∀ l ∈ labels, l.IsOwn) (spent : h.Spent token) {j : Nat} (le : i ≤ j) (s : SignalId) (handler : H) :
    (token, handler) ∉ m.subscribersOf j s := by
  induction shuts with
  | done all =>
    intro mem
    obtain ⟨f, there, -⟩ := mem_subscribersOf.1 mem
    have := (List.getElem?_eq_some_iff.1 there).1
    omega
  | @next i h g k m before steps rest _ _ _ waited fin onward ih =>
    have split : ∀ {P : HubLabel V H R → Prop}, (∀ l ∈ before ++ (.move (.shutdown i) :: steps) ++ rest, P l) →
        (∀ l ∈ before, P l) ∧ (∀ l ∈ HubLabel.move (.shutdown i) :: steps, P l) ∧ ∀ l ∈ rest, P l := by
      intro P all
      refine ⟨fun l hl => all l ?_, fun l hl => all l ?_, fun l hl => all l ?_⟩
      · exact List.mem_append_left _ (List.mem_append_left _ hl)
      · exact List.mem_append_left _ (List.mem_append_right _ hl)
      · exact List.mem_append_right _ hl
    obtain ⟨own₁, own₂, own₃⟩ := split own
    have reached := reachable.run own₁ waited
    have spentThen : k.Spent token :=
      run_keeps (P := fun g => g.Spent token) (fun _ _ _ _ s made => (transition_of_step made).spent s) fin.run
        (run_keeps (P := fun g => g.Spent token) (fun _ _ _ _ s made => (transition_of_step made).spent s) waited spent)
    rcases Nat.lt_or_eq_of_le le with lt | rfl
    · exact ih (reached.run own₂ fin.run) own₃ spentThen lt
    · intro mem
      obtain ⟨es, ran⟩ := onward.run
      obtain ⟨f, there, bare⟩ := fin.isBare reached own₂
      obtain ⟨f', there', lists⟩ := mem_subscribersOf.1 (lists_of_spent (e := (token, handler)) ran spentThen mem)
      obtain rfl := Option.some.inj (there.symm.trans there')
      exact Feed.not_hasToken_of_empty bare.1 token ⟨s, handler, lists⟩

/-- A hub that is held has a handle to give. -/
theorem handles_eq_zero (refused : h.step (.move .clone) = none) : h.handles = 0 := by
  unfold handles
  split
  · rename_i n life
    cases n with
    | zero => rfl
    | succ n => simp [Hub.step, act, life] at refused
  · rfl

theorem Ends.run (ends : Ends i signal token h labels k) : ∃ es, LazyHub.run Hub.step labels h = some (k, es) := by
  cases ends with
  | unsubscribed waited fin => exact ⟨_, run_append.2 ⟨_, _, _, waited, fin.run, rfl⟩⟩
  | guardDropped held drops =>
    cases drops with
    | inTime taken waited fin left =>
      have unsubscribed := run_append.2 ⟨_, _, _, waited, fin.run, rfl⟩
      exact ⟨_, run_cons.2 ⟨_, _, taken, run_append.2 ⟨_, _, _, unsubscribed, left, rfl⟩, rfl⟩⟩
    | late => exact ⟨[], rfl⟩
  | shutDown shuts => exact shuts.run
  | closed last ran shut => exact ⟨_, ran⟩

/-- When what ends a subscription returns nobody is subscribed under its token. -/
theorem Ends.unlisted (ends : Ends i signal token h labels k) (reachable : Reachable settings plans h)
    (own : ∀ l ∈ labels, l.IsOwn) (addressed : h.Addressed signal token) : k.Unlisted token := by
  cases ends with
  | unsubscribed waited fin =>
    exact fin.unlisted (reachable.run (fun l hl => own l (List.mem_append_left _ hl)) waited) (addressed.run waited)
  | guardDropped held drops =>
    cases drops with
    | inTime taken waited fin left =>
      obtain ⟨first, own⟩ := List.forall_mem_cons.1 own
      have reached := (reachable.step first taken).run
        (fun l hl => own l (List.mem_append_left _ (List.mem_append_left _ hl))) waited
      have addressed := (addressed.step (transition_of_step taken)).run waited
      exact (fin.unlisted reached addressed).run (addressed.run fin.run).spent left
    | late refused => exact absurd (handles_eq_zero refused) (Nat.ne_of_gt held)
  | shutDown shuts => exact fun j s handler => shuts.unlisted reachable own addressed.spent (Nat.zero_le j) s handler
  | closed last ran shut => exact fun j s handler mem => (reachable.run own ran).open_of_mem mem shut

/-- **Silence after a subscription has ended.** Somebody is subscribed to a signal when the subscription is ended: it
is unsubscribed with its token, its guard is dropped while somebody has a handle on the hub, the hub is shut down, or
the last handle on the hub is dropped. From the return on, whatever happens, it is called at most once more, and only
in a delivery for the signal that was under way at the return and had found it among those to be called. Nothing that
is posted by then and whose delivery has not begun reaches it, nor does anything later. -/
theorem silent_after_end (reachable : Reachable settings plans h) {handler : H}
    (subscribed : (token, handler) ∈ h.subscribersOf i signal) (ends : Ends i signal token h labels k)
    (own : ∀ l ∈ labels, l.IsOwn) : k.IsSilent signal token := by
  have addressed := reachable.addressed subscribed
  obtain ⟨es, ran⟩ := ends.run
  exact isSilent_of_unlisted (reachable.run own ran) (addressed.run ran) (ends.unlisted reachable own addressed)

end Ends

end Hub

/-! ### The lamps -/

namespace Lamp

/-- The signal of a second lamp. -/
def twinKey : Key := ⟨⟨2⟩, "twin", ValueType.truth.name⟩

/-- A second lamp, dark at first. -/
def twin : FeedPlan Value := ⟨⟨"twin"⟩, [⟨twinKey, .truth false⟩]⟩

/-- A hub over both lamps. -/
def twins : Hub Value Unit Unit := { feeds := [.ofPlan plan, .ofPlan twin], pool := .ofSize 1 true }

/-- Somebody subscribes to the second lamp, which shines. -/
def twinSubscription : List (HubLabel Value Unit Unit) :=
  [.move (.draw twinKey ()), .move (.subscribe ⟨2⟩), .hear 1 (.queried (.ok ())),
    .move (.advance 1 (.decoded (.ok ⟨[⟨twinKey.id, .truth true⟩]⟩))), .move (.advance 1 .seed), .move (.advance 1 .write),
    .move (.advance 1 .settle), .hear 1 (.registered (.ok ⟨1⟩))]

/-- The last handle is dropped, and the provider of the first lamp is asked to end its registration. -/
def closing : List (HubLabel Value Unit Unit) :=
  [.move .drop, .move .close, .move (.advance 0 .clear), .move (.advance 0 .clear), .move (.advance 0 .withdraw)]

/-- The second lamp goes dark, and whoever is subscribed to it is told. -/
def twinSwitching : List (HubLabel Value Unit Unit) :=
  [.invoke 1 1 (), .move (.advance 1 (.pushDecoded 0 (.ok ⟨[⟨twinKey.id, .truth false⟩]⟩))), .move (.advance 1 (.enter 0)),
    .move (.advance 1 .write), .move (.advance 1 .look), .move (.advance 1 .post), .move (.advance 1 .settle),
    .move (.advance 1 (.leave 0)), .move (.take 0), .move (.call 0)]

/-- Two have subscribed to the lamp, which shines and then goes dark and shines again; the first of them is being told
that it went dark. -/
def telling : List (HubLabel Value Unit Unit) :=
  subscription ++
    [.move (.draw key ()), .move (.subscribe ⟨2⟩), .invoke 0 1 (),
      .move (.advance 0 (.pushDecoded 0 (.ok ⟨[emission false, emission true]⟩))), .move (.advance 0 (.enter 0)),
      .move (.advance 0 .write), .move (.advance 0 .look), .move (.advance 0 .post), .move (.advance 0 .write),
      .move (.advance 0 .look), .move (.advance 0 .post), .move (.advance 0 .settle), .move (.take 0), .move (.call 0)]

/-- Whoever is to be told is told. -/
def toldOn : List (HubLabel Value Unit Unit) :=
  [.move (.returned 0 false), .move (.call 0), .move (.returned 0 false), .move (.finish 0), .move (.take 0),
    .move (.call 0), .move (.returned 0 false), .move (.finish 0)]

end Lamp

namespace Hub

/-- While the first subscriber to the lamp is told that it went dark it ends the subscription of the second one. This
one is told as well, but not that the lamp shines again. -/
theorem lamp_is_told_once_more :
    ∃ h past k a es m told, run Hub.step Lamp.telling Lamp.hub = some (h, past) ∧
      (⟨2⟩, ()) ∈ h.subscribersOf 0 Lamp.key.id ∧
      Finishes 0 h [.move (.unsubscribe Lamp.key.id ⟨2⟩)] k es a ∧ k.IsSilent Lamp.key.id ⟨2⟩ ∧
      run Hub.step Lamp.toldOn k = some (m, told) ∧ receivedBy ⟨2⟩ told = [.truth false] ∧
      receivedBy ⟨1⟩ told = [.truth true] := by
  obtain ⟨h, past, k, a, es, m, told, ran, both, fin, onward, once, again⟩ : ∃ h past k a es m told,
      run Hub.step Lamp.telling Lamp.hub = some (h, past) ∧ h.subscribersOf 0 Lamp.key.id = [(⟨1⟩, ()), (⟨2⟩, ())] ∧
      Finishes 0 h [.move (.unsubscribe Lamp.key.id ⟨2⟩)] k es a ∧ run Hub.step Lamp.toldOn k = some (m, told) ∧
      receivedBy ⟨2⟩ told = [.truth false] ∧ receivedBy ⟨1⟩ told = [.truth true] :=
    ⟨_, _, _, _, _, _, _, rfl, rfl, .last rfl (.unsubscribe ⟨1, rfl⟩ rfl) rfl rfl rfl, rfl, rfl, rfl⟩
  have assembled : assemble {} [Lamp.plan] = .ok Lamp.hub := rfl
  have reachable := (Reachable.assembled assembled).run (by simp [Lamp.telling, Lamp.subscription, HubLabel.IsOwn]) ran
  have subscribed : (⟨2⟩, ()) ∈ h.subscribersOf 0 Lamp.key.id := by simp [both]
  have silent := silent_after_end reachable subscribed (.unsubscribed (run_nil h) fin) (by simp [HubLabel.IsOwn])
  exact ⟨h, past, k, a, es, m, told, ran, subscribed, fin, silent, onward, once, again⟩

/-- **A guard that is dropped too late does nothing.** The last handle on a hub over two lamps is gone, and while the
provider of the first lamp ends its registration the guard of the subscription to the second one is dropped. Then the
second lamp goes dark, and the subscriber is told, although nothing was being delivered when the guard was dropped. -/
theorem late_guard_is_called :
    assemble {} [Lamp.plan, Lamp.twin] = .ok Lamp.twins ∧
      ∃ h past, run Hub.step (Lamp.subscription ++ Lamp.twinSubscription ++ Lamp.closing) Lamp.twins = some (h, past) ∧
        (⟨2⟩, ()) ∈ h.subscribersOf 1 Lamp.twinKey.id ∧ DropsGuard 1 Lamp.twinKey.id ⟨2⟩ h [] h ∧
        (∃ k told, run Hub.step Lamp.twinSwitching h = some (k, told) ∧ receivedBy ⟨2⟩ told = [.truth false]) ∧
        ¬ h.IsSilent Lamp.twinKey.id ⟨2⟩ := by
  obtain ⟨h, past, k, told, ran, only, late, onward, called, idle⟩ : ∃ h past k told,
      run Hub.step (Lamp.subscription ++ Lamp.twinSubscription ++ Lamp.closing) Lamp.twins = some (h, past) ∧
      h.subscribersOf 1 Lamp.twinKey.id = [(⟨2⟩, ())] ∧ h.step (.move .clone) = none ∧
      run Hub.step Lamp.twinSwitching h = some (k, told) ∧ receivedBy ⟨2⟩ told = [.truth false] ∧
      h.pool = .ofSize 1 true := ⟨_, _, _, _, rfl, rfl, rfl, rfl, rfl, rfl⟩
  refine ⟨rfl, h, past, ran, only ▸ List.mem_singleton_self _, .late late, ⟨k, told, onward, called⟩, ?_⟩
  intro silent
  obtain ⟨-, underWay, -⟩ := silent _ k told (by simp [Lamp.twinSwitching, HubLabel.IsOwn]) onward
  obtain ⟨w, d, doing, -⟩ := underWay (.truth false) (called ▸ List.mem_singleton_self _)
  rw [idle, WorkerPool.current?_ofSize] at doing
  cases doing

end Hub

end LazyHub
