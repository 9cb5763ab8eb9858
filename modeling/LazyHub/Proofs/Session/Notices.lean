import LazyHub.Proofs.Feed.Writes
import LazyHub.Proofs.Session.Delivering

/-!
# What comes to wait for subscribers

What a push writes is offered to the gates one value after another, so a signal's subscribers are owed what
its gate lets through (`Feed.valuesFor_owes`). What is owed is queued behind what waits for the signal already
(`World.queued_after`), and so it is what is told next of the signal (`World.untold_after`). All that is to be told of a
signal is what waits at the feed that serves it (`Hub.Reachable.untold_eq`).

Whoever is told something was subscribed when it was told (`Delivers.listed`). A token stands for one
subscription to one signal, so what is told under a token is told of this signal.
-/

namespace LazyHub

variable {V H R : Type}

namespace Feed

variable [SignalValue V] {f : Feed V H R} {signal : SignalId}

/-- A signal's cache has been through all that is written to it. -/
theorem cached?_written (f : Feed V H R) (values : List (Emission V)) (signal : SignalId) :
    (f.written values).cached? signal = (f.cached? signal).map (settled · (valuesFor signal values)) := by
  induction values generalizing f with
  | nil => exact Option.map_id_fun.symm ▸ rfl
  | cons e rest ih =>
    have split : valuesFor signal (e :: rest) = valuesFor signal [e] ++ valuesFor signal rest := valuesFor_append signal [e] rest
    rw [written, List.foldl_cons, ← written, ih, cached?_writeGate, Option.map_map, split]
    congr 1
    funext v
    exact (settled_append v _ _).symm

omit [SignalValue V] in
theorem subscribers_attach (f : Feed V H R) (signal : SignalId) (token : Token) (handler : H) (s : SignalId) :
    ((f.attach signal token handler).outlet? s).map (·.subscribers) =
      if s = signal then ((f.outlet? signal).map (·.subscribers)).map (·.insert token handler)
      else (f.outlet? s).map (·.subscribers) := by
  have found := outlet?_modifyOutlet f signal (c := fun o => { o with subscribers := o.subscribers.insert token handler })
    (fun _ => rfl) s
  change ((f.modifyOutlet signal _).outlet? s).map _ = _
  rw [found]
  split
  · rw [Option.map_map, Option.map_map]
    rfl
  · rfl

theorem subscribers_written (f : Feed V H R) (values : List (Emission V)) (signal : SignalId) :
    ((f.written values).outlet? signal).map (·.subscribers) = (f.outlet? signal).map (·.subscribers) := by
  induction values generalizing f with
  | nil => rfl
  | cons e rest ih => exact (ih (f.writeGate e)).trans (subscribers_writeGate f e signal)

/-- **A signal's subscribers are owed what its gate lets through**, if there are any. -/
theorem valuesFor_owes {v : V} (known : f.cached? signal = some v) (values : List (Emission V)) :
    valuesFor signal (f.owes values) = if f.isWatched signal then changes v (valuesFor signal values) else [] := by
  induction values generalizing f v with
  | nil => simp [owes, valuesFor, changes]
  | cons e rest ih =>
    have known' := (cached?_writeGate f e signal).trans (congrArg _ known)
    rw [Option.map_some] at known'
    rw [owes, valuesFor_append, ih known', isWatched_writeGate]
    have split : valuesFor signal (e :: rest) = valuesFor signal [e] ++ valuesFor signal rest := valuesFor_append signal [e] rest
    rw [split, changes_append]
    by_cases here : e.signal = signal
    · subst here
      have one : valuesFor e.signal [e] = [e.value] := by simp [valuesFor]
      rw [one, owed, isChange_eq known]
      cases f.isWatched e.signal <;> cases alike : SignalValue.same v e.value <;> simp [valuesFor, changes, alike]
    · have none : valuesFor signal [e] = [] := by simp [valuesFor, here]
      have nothing : valuesFor signal (f.owed true e) = [] := by
        rw [owed]
        split
        · exact none
        · rfl
      rw [none, nothing]
      cases f.isWatched signal <;> rfl

end Feed

/-! ### Queues -/

theorem owedTo_map_due (signal : SignalId) (owed : List (Emission V)) :
    owedTo signal (owed.map Emission.due) = valuesFor signal owed := by
  rw [owedTo, valuesFor, List.filterMap_map]
  rfl

namespace Hub

theorem flushes_posting (i : Nat) (p : WorkerPool (Notice V) (Delivery V H)) (owed : List (Emission V)) :
    (posting i p owed).flushes = p.flushes := by
  induction owed generalizing p with
  | nil => rfl
  | cons e rest ih =>
    rw [posting, List.foldl_cons, ← posting, ih, WorkerPool.post, WorkerPool.send]
    split <;> rfl

theorem ready_posting {i : Nat} {p : WorkerPool (Notice V) (Delivery V H)} (ready : p.IsReady)
    (owed : List (Emission V)) : (posting i p owed).IsReady where
  serving w there := by
    rw [(posted_posting i p owed).alike.serving]
    exact ready.serving w ((posted_posting i p owed).alike.size ▸ there)
  idle w := ((posted_posting i p owed).current w).trans (ready.idle w)

/-- What is told of something depends on who is subscribed. -/
theorem telling_congr {h k : Hub V H R} (same : ∀ i signal, k.subscribersOf i signal = h.subscribersOf i signal)
    (parcel : Parcel (Notice V)) : k.telling parcel = h.telling parcel := by
  cases parcel with
  | job signal notice => simp only [telling, same]
  | marker => rfl

end Hub

namespace World

variable [SignalValue V] {settings : Settings} {plans : List (FeedPlan V)} {w : World V H R} {i : Nat} {x y : Site V H R}
  {owed : List (Emission V)}

/-- **What is owed waits behind what waits already.** -/
theorem queued_after (reachable : Hub.Reachable settings plans w.hub) (ready : w.hub.pool.IsReady) (signal : SignalId) :
    (w.after i y owed).hub.pool.queued signal = w.hub.pool.queued signal ++ (valuesFor signal owed).map (⟨i, ·⟩) := by
  have some' : 0 < w.hub.pool.size := by
    rw [reachable.staffed.size, Settings.workerCount]
    omega
  have serving : ∀ s, w.hub.pool.isServing (w.hub.pool.shard s) := fun s => ready.serving _ (WorkerPool.shard_lt some' s)
  rw [← owedTo_map_due]
  exact (Hub.posted_posting i w.hub.pool owed).queued serving signal

omit [SignalValue V] in
theorem HasSite.subscribersOf (at' : w.HasSite i x) (signal : SignalId) :
    w.hub.subscribersOf i signal = ((x.feed.outlet? signal).map (·.subscribers.snapshot)).getD [] := by
  rw [Hub.subscribersOf, at'.feed, Option.bind_some]
  cases x.feed.outlet? signal <;> rfl

omit [SignalValue V] in
theorem subscribersOf_after (at' : w.HasSite i x)
    (same : ∀ signal, (y.feed.outlet? signal).map (·.subscribers) = (x.feed.outlet? signal).map (·.subscribers)) (j : Nat)
    (signal : SignalId) : (w.after i y owed).hub.subscribersOf j signal = w.hub.subscribersOf j signal := by
  by_cases here : j = i
  · subst here
    have both := congrArg (Option.map Subscribers.snapshot) (same signal)
    rw [Option.map_map, Option.map_map] at both
    have here : (w.after j y owed).HasSite j y := at'.after
    rw [here.subscribersOf, at'.subscribersOf]
    exact congrArg (·.getD []) both
  · have elsewhere : (w.after i y owed).hub.feeds[j]? = w.hub.feeds[j]? := List.getElem?_set_ne (Ne.symm here)
    rw [Hub.subscribersOf, Hub.subscribersOf, elsewhere]

/-- **What is owed is told after what waits already**, if nobody comes or goes. -/
theorem untold_after (reachable : Hub.Reachable settings plans w.hub) (ready : w.hub.pool.IsReady) (at' : w.HasSite i x)
    (same : ∀ signal, (y.feed.outlet? signal).map (·.subscribers) = (x.feed.outlet? signal).map (·.subscribers))
    (signal : SignalId) :
    (w.after i y owed).hub.untold signal = w.hub.untold signal ++
      (valuesFor signal owed).flatMap fun v => (w.hub.subscribersOf i signal).map fun e => ⟨signal, e.1, e.2, v⟩ := by
  have telling : ∀ parcel, (w.after i y owed).hub.telling parcel = w.hub.telling parcel :=
    Hub.telling_congr (subscribersOf_after at' same)
  rw [Hub.untold, queued_after reachable ready, List.flatMap_append, List.flatMap_map]
  simp only [telling]
  rfl

end World

/-- Whoever waits to be told something is subscribed. -/
theorem Hub.listed_of_mem_untold {h : Hub V H R} {signal : SignalId} {told : Heard V H} (mem : told ∈ h.untold signal) :
    told.signal = signal ∧ ∃ i, (told.token, told.handler) ∈ h.subscribersOf i signal := by
  obtain ⟨notice, -, mem⟩ := List.mem_flatMap.1 mem
  obtain ⟨e, listed, rfl⟩ := List.mem_map.1 mem
  exact ⟨rfl, notice.feed, listed⟩

/-! ### What waits at a feed -/

namespace Hub

/-- The values of a feed that wait to be told to the subscribers of a signal. -/
def waiting (h : Hub V H R) (i : Nat) (signal : SignalId) : List V := ((h.pool.queued signal).filter (·.feed = i)).map (·.value)

theorem waiting_of_drained {h : Hub V H R} (drained : ∀ w, h.pool.queue w = []) (i : Nat) (signal : SignalId) :
    h.waiting i signal = [] := by
  rw [waiting, WorkerPool.queued, drained]
  rfl

variable [SignalValue V] {settings : Settings} {plans : List (FeedPlan V)} {h : Hub V H R} {i : Nat} {signal : SignalId}

/-- What waits at the feed that serves a signal is all that is to be told of the signal. -/
theorem Reachable.untold_eq (reachable : Reachable settings plans h) (served : h.feedOf? signal = some i) :
    h.untold signal = (h.waiting i signal).flatMap fun v => (h.subscribersOf i signal).map fun e => ⟨signal, e.1, e.2, v⟩ := by
  rw [untold, waiting]
  induction h.pool.queued signal with
  | nil => rfl
  | cons notice rest ih =>
    rw [List.flatMap_cons, ih]
    by_cases here : notice.feed = i
    · rw [List.filter_cons_of_pos (by simpa using here), List.map_cons, List.flatMap_cons, telling, here]
    · rw [List.filter_cons_of_neg (by simpa using here), telling, reachable.subscribersOf_elsewhere served here]
      rfl

end Hub

theorem World.waiting_after [SignalValue V] {settings : Settings} {plans : List (FeedPlan V)} {w : World V H R} {i : Nat}
    {y : Site V H R} (reachable : Hub.Reachable settings plans w.hub) (ready : w.hub.pool.IsReady) (owed : List (Emission V))
    (k : Nat) (signal : SignalId) : (w.after i y owed).hub.waiting k signal =
      w.hub.waiting k signal ++ if i = k then valuesFor signal owed else [] := by
  rw [Hub.waiting, queued_after reachable ready, List.filter_append, List.map_append]
  congr 1
  split
  · rename_i here
    subst here
    rw [List.filter_eq_self.2 fun notice mem => by
      obtain ⟨v, -, rfl⟩ := List.mem_map.1 mem
      exact decide_eq_true rfl, List.map_map]
    exact List.map_id _
  · rename_i elsewhere
    rw [List.filter_eq_nil_iff.2 fun notice mem => by
      obtain ⟨v, -, rfl⟩ := List.mem_map.1 mem
      simpa using elsewhere]
    rfl

namespace Delivers

variable [SignalValue V] {s t : Session V H R (List (Heard V H))} {news : List (Heard V H)}

theorem world_eq (delivers : Delivers s news t) : t.world = s.world.withPool t.world.hub.pool :=
  congrArg Session.world delivers.worked

theorem memory_eq (delivers : Delivers s news t) : t.memory = s.memory ++ news := congrArg Session.memory delivers.worked

theorem thread_eq (delivers : Delivers s news t) : t.thread = s.thread := by
  rw [delivers.worked]
  rfl

theorem hasSite (delivers : Delivers s news t) {i : Nat} {x : Site V H R} (at' : s.world.HasSite i x) : t.world.HasSite i x := by
  rw [delivers.world_eq]
  exact ⟨at'.feed, at'.source⟩

/-- Nothing is under way once the workers are done. -/
theorem calm (delivers : Delivers s news t) {settings : Settings} {plans : List (FeedPlan V)}
    (before : s.world.IsCalm settings plans) : t.world.IsCalm settings plans := by
  have reached := delivers.comes.reachable before.reachable
  rw [delivers.world_eq] at reached ⊢
  exact ⟨reached, before.held, before.undrawn, before.sited, fun i x at' => before.rest i x ⟨at'.feed, at'.source⟩⟩

end Delivers

/-- **Whoever is told something is subscribed.** -/
theorem Delivers.listed [SignalValue V] {s t : Session V H R (List (Heard V H))} {news : List (Heard V H)}
    (delivers : Delivers s news t) {told : Heard V H} (mem : told ∈ news) :
    ∃ i, (told.token, told.handler) ∈ s.world.hub.subscribersOf i told.signal := by
  have mem' : told ∈ s.world.hub.untold told.signal := by
    rw [← delivers.told]
    exact List.mem_append_left _ (List.mem_filter.2 ⟨mem, by simp⟩)
  exact (Hub.listed_of_mem_untold mem').2

end LazyHub
