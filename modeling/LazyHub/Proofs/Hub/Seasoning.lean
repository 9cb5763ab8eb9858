import LazyHub.Proofs.Feed.Seasoning
import LazyHub.Proofs.Hub.Renumbering

/-!
# Hubs that have been in use

A hub numbers its flushes, and its feeds number their pushes. A hub that has been in use before is *seasoned*
(`Hub.seasoned`): there were flushes and pushes, and callbacks were given that are not invoked any more. What it does
depends on none of this (`Hub.step_seasoned`).
-/

namespace LazyHub

variable {V H R : Type}

/-! ### Pools in which there were flushes -/

section Pool

variable {J D : Type} (m : ℕ)

/-- What travels in a queue, where markers are of later flushes. -/
def Parcel.seasoned : Parcel J → Parcel J
  | .marker flush => .marker (flush + m)
  | parcel => parcel

/-- A worker in whose queue markers are of later flushes. -/
def Worker.seasoned (x : Worker J D) : Worker J D := { x with queue := x.queue.map (·.seasoned m) }

/-- A later flush. -/
def Flush.seasoned (f : Flush) : Flush := { f with number := f.number + m }

namespace WorkerPool

variable (p : WorkerPool J D)

/-- A pool in which there were so many flushes before. -/
def seasoned : WorkerPool J D :=
  { p with
    workers := p.workers.map (·.seasoned m)
    flushes := p.flushes.map (·.seasoned m)
    flushCount := p.flushCount + m }

theorem modifyWorker_seasoned (change change' : Worker J D → Worker J D)
    (same : ∀ x : Worker J D, change' (x.seasoned m) = (change x).seasoned m) (w : ℕ) :
    (p.seasoned m).modifyWorker w change' = (p.modifyWorker w change).seasoned m := by
  simp only [modifyWorker, seasoned]
  rw [modify_map _ change change' same]

theorem modifyFlush_seasoned (change change' : Flush → Flush)
    (same : ∀ f : Flush, change' (f.seasoned m) = (change f).seasoned m) (number : ℕ) :
    (p.seasoned m).modifyFlush (number + m) change' = (p.modifyFlush number change).seasoned m := by
  simp only [modifyFlush, seasoned, List.map_map]
  congr 1
  refine List.map_congr_left fun f _ => ?_
  have named : (f.seasoned m).number = number + m ↔ f.number = number := Nat.add_right_cancel_iff
  simp only [Function.comp_apply, named, same]
  split <;> rfl

@[simp] theorem size_seasoned : (p.seasoned m).size = p.size := List.length_map _

@[simp] theorem getElem?_seasoned (w : ℕ) : (p.seasoned m).workers[w]? = p.workers[w]?.map (·.seasoned m) :=
  List.getElem?_map

theorem send_seasoned (w : ℕ) (parcel : Parcel J) :
    (p.seasoned m).send w (parcel.seasoned m) = ((p.send w parcel).1, (p.send w parcel).2.seasoned m) := by
  have alive : ((p.seasoned m).workers[w]?.map (·.alive)) = p.workers[w]?.map (·.alive) := by
    rw [getElem?_seasoned, Option.map_map]
    rfl
  simp only [send, alive]
  split
  · refine congrArg (true, ·) (modifyWorker_seasoned m p _ _ (fun x => ?_) w)
    simp [Worker.seasoned]
  · rfl

theorem post_seasoned (signal : SignalId) (job : J) :
    (p.seasoned m).post signal job = ((p.post signal job).1, (p.post signal job).2.seasoned m) := by
  simp only [post, shard, size_seasoned]
  exact send_seasoned m p _ (.job signal job)

theorem startFlush_seasoned : (p.seasoned m).startFlush = p.startFlush.seasoned m := by
  simp [startFlush, seasoned, Flush.seasoned, Nat.add_right_comm]

@[simp] theorem flush?_seasoned (number : ℕ) :
    (p.seasoned m).flush? (number + m) = (p.flush? number).map (·.seasoned m) := by
  simp only [flush?, seasoned, List.find?_map]
  congr 2
  funext f
  simp [Flush.seasoned]

theorem mark_seasoned (number : ℕ) : (p.seasoned m).mark (number + m) = (p.mark number).map (seasoned m) := by
  unfold mark
  rw [flush?_seasoned, size_seasoned]
  cases p.flush? number with
  | none => rfl
  | some f =>
    have next : (f.seasoned m).next = f.next := rfl
    have sent := send_seasoned m p f.next (.marker number)
    simp only [Option.map_some, next]
    split
    · rw [Parcel.seasoned] at sent
      rw [sent]
      refine congrArg some (modifyFlush_seasoned m _ _ _ ?_ number)
      exact fun _ => rfl
    · rfl

theorem resolve_seasoned (number : ℕ) : (p.seasoned m).resolve (number + m) = (p.resolve number).map (seasoned m) := by
  have resolved : (p.seasoned m).isResolved (number + m) = p.isResolved number := by
    unfold isResolved
    rw [flush?_seasoned, size_seasoned]
    cases p.flush? number <;> rfl
  have left : (p.seasoned m).flushes.filter (·.number ≠ number + m) =
      (p.flushes.filter (·.number ≠ number)).map (·.seasoned m) := by
    simp [seasoned, List.filter_map, Function.comp_def, Flush.seasoned]
  unfold resolve
  rw [resolved, left]
  split <;> rfl

@[simp] theorem next?_seasoned (w : ℕ) : (p.seasoned m).next? w = (p.next? w).map (·.seasoned m) := by
  simp only [next?, getElem?_seasoned]
  cases p.workers[w]? with
  | none => rfl
  | some x =>
    simp only [Option.map_some, Worker.seasoned, List.head?_map]
    split <;> rfl

theorem take_seasoned (w : ℕ) (start : SignalId → J → D) :
    (p.seasoned m).take w start = (p.take w start).map (seasoned m) := by
  unfold take
  rw [next?_seasoned]
  cases p.next? w with
  | none => rfl
  | some parcel =>
    cases parcel with
    | job signal job =>
      refine congrArg some (modifyWorker_seasoned m p _ _ (fun x => ?_) w)
      simp [Worker.seasoned]
    | marker number =>
      have taken := modifyWorker_seasoned m p (fun x => { x with queue := x.queue.tail })
        (fun x => { x with queue := x.queue.tail }) (fun x => by simp [Worker.seasoned]) w
      simp only [Option.map_some, Parcel.seasoned]
      rw [taken]
      refine congrArg some (modifyFlush_seasoned m _ _ _ ?_ number)
      exact fun _ => rfl

@[simp] theorem current?_seasoned (w : ℕ) : (p.seasoned m).current? w = p.current? w := by
  simp only [current?, getElem?_seasoned]
  cases p.workers[w]? <;> rfl

theorem setCurrent_seasoned (w : ℕ) (d : D) : (p.seasoned m).setCurrent w d = (p.setCurrent w d).seasoned m := by
  refine modifyWorker_seasoned m p _ _ ?_ w
  exact fun _ => rfl

theorem finish_seasoned (w : ℕ) : (p.seasoned m).finish w = (p.finish w).seasoned m := by
  refine modifyWorker_seasoned m p _ _ ?_ w
  exact fun _ => rfl

theorem collapse_seasoned (w : ℕ) : (p.seasoned m).collapse w = (p.collapse w).seasoned m := by
  have ended := modifyWorker_seasoned m p (fun _ => { queue := [], current := none, alive := false })
    (fun _ => { queue := [], current := none, alive := false }) (fun _ => rfl) w
  unfold collapse
  rw [ended]
  simp [seasoned, Flush.seasoned]

@[simp] theorem isIdle_seasoned (w : ℕ) : (p.seasoned m).isIdle w = p.isIdle w := by
  simp only [isIdle, getElem?_seasoned]
  cases p.workers[w]? with
  | none => rfl
  | some x => simp [Worker.seasoned]

end WorkerPool

end Pool

/-! ### Hubs -/

/-- **What a hub has been through** that is over: how many tokens it has drawn, and for each of its feeds how many epochs
and pushes there were and the epochs of the callbacks that it gave; and how many flushes there were. -/
structure Bygones where
  /-- How many tokens were drawn. -/
  tokens : ℕ
  /-- How many epochs of each feed are over. -/
  epochs : ℕ → ℕ
  /-- How many pushes each feed had. -/
  pushes : ℕ → ℕ
  /-- The epochs of the callbacks that each feed gave. -/
  callbacks : ℕ → List ℕ
  /-- How many flushes there were. -/
  flushes : ℕ

variable (b : Bygones)

/-- A move that comes after what is over. -/
def HubMove.seasoned : HubMove V H → HubMove V H
  | .advance i move => .advance i (move.seasoned (b.pushes i))
  | .mark flush => .mark (flush + b.flushes)
  | .resolve flush => .resolve (flush + b.flushes)
  | m => m

/-- A step that comes after what is over. -/
def HubLabel.seasoned : HubLabel V H R → HubLabel V H R
  | .move m => .move (m.seasoned b)
  | l => l

namespace Hub

/-- A hub whose feeds had pushes before and gave callbacks, and in which there were flushes. -/
def seasoned (h : Hub V H R) : Hub V H R :=
  { h with
    feeds := h.feeds.mapIdx fun i f => f.seasoned (b.callbacks i) (b.pushes i)
    pool := h.pool.seasoned b.flushes }

/-- What a step leaves behind of a hub that has been in use. -/
def Result.seasoned (r : Result V H R) : Result V H R := { r with state := r.state.seasoned b }

section Seasoned

variable (h : Hub V H R)

@[simp] theorem getElem?_seasoned (i : ℕ) :
    (h.seasoned b).feeds[i]? = h.feeds[i]?.map (·.seasoned (b.callbacks i) (b.pushes i)) := List.getElem?_mapIdx

@[simp] theorem length_seasoned : (h.seasoned b).feeds.length = h.feeds.length := List.length_mapIdx

theorem set_seasoned (i : ℕ) (f : Feed V H R) :
    (h.seasoned b).feeds.set i (f.seasoned (b.callbacks i) (b.pushes i)) =
      (h.feeds.set i f).mapIdx fun i f => f.seasoned (b.callbacks i) (b.pushes i) := by
  apply List.ext_getElem?
  intro j
  simp only [List.getElem?_set, getElem?_seasoned, length_seasoned, List.getElem?_mapIdx]
  split
  · rename_i eq
    subst eq
    split <;> rfl
  · rfl

theorem all_seasoned {p : Feed V H R → Bool} (same : ∀ older n f, p (Feed.seasoned older n f) = p f) :
    (h.seasoned b).feeds.all p = h.feeds.all p := by
  have plain : ∀ x : Feed V H R × ℕ, p (x.1.seasoned (b.callbacks x.2) (b.pushes x.2)) = p x.1 := fun x => same ..
  simp only [seasoned, List.mapIdx_eq_zipIdx_map, List.all_map, Function.comp_def, plain]
  rw [← Function.comp_def, ← List.all_map, List.zipIdx_map_fst]

@[simp] theorem isQuiet_seasoned : (h.seasoned b).isQuiet = h.isQuiet := all_seasoned b h fun _ _ _ => rfl

@[simp] theorem isAbandoned_seasoned : (h.seasoned b).isAbandoned = h.isAbandoned := by
  have same : ∀ older n (f : Feed V H R), (decide ((f.seasoned older n).owners = 0) && !(f.seasoned older n).retiring) =
      (decide (f.owners = 0) && !f.retiring) := fun older n f => by rw [Feed.owners_seasoned]; rfl
  unfold isAbandoned
  rw [all_seasoned b h same]
  rfl

theorem letGo_seasoned : (h.seasoned b).letGo = h.letGo.seasoned b := by
  have feeds : (h.seasoned b).feeds.map (fun f => { f with handles := f.handles - 1 }) =
      (h.feeds.map fun f => { f with handles := f.handles - 1 }).mapIdx
        fun i f => f.seasoned (b.callbacks i) (b.pushes i) := by
    apply List.ext_getElem?
    intro i
    simp only [List.getElem?_map, getElem?_seasoned, List.getElem?_mapIdx]
    cases h.feeds[i]? <;> rfl
  rw [letGo, feeds]
  rfl

@[simp] theorem outlets_seasoned : (h.seasoned b).outlets = h.outlets := by
  have numbered : (h.seasoned b).feeds.zipIdx =
      h.feeds.zipIdx.map fun x => (x.1.seasoned (b.callbacks x.2) (b.pushes x.2), x.2) := by
    apply List.ext_getElem?
    intro i
    simp only [List.getElem?_zipIdx, getElem?_seasoned, List.getElem?_map]
    cases h.feeds[i]? <;> simp
  simp only [outlets, numbered, List.flatMap_map]
  rfl

@[simp] theorem feedOf?_seasoned (signal : SignalId) : (h.seasoned b).feedOf? signal = h.feedOf? signal := by
  simp only [feedOf?, find?, outlets_seasoned]

@[simp] theorem route_seasoned (key : Key) : (h.seasoned b).route key = h.route key := by
  simp only [route, find?, outlets_seasoned]

@[simp] theorem subscribersOf_seasoned (i : ℕ) (signal : SignalId) :
    (h.seasoned b).subscribersOf i signal = h.subscribersOf i signal := by
  simp only [subscribersOf, getElem?_seasoned]
  cases h.feeds[i]? <;> rfl

theorem absorb_seasoned (i : ℕ) (e : FeedEffect V) :
    (h.seasoned b).absorb i e = ((h.absorb i e).1.seasoned b, (h.absorb i e).2) := by
  cases e with
  | owed signal value =>
    have pool : (h.seasoned b).pool = h.pool.seasoned b.flushes := rfl
    simp only [absorb, pool, WorkerPool.post_seasoned]
    rfl
  | _ => rfl

theorem absorbAll_seasoned (i : ℕ) (es : List (FeedEffect V)) :
    (h.seasoned b).absorbAll i es = ((h.absorbAll i es).1.seasoned b, (h.absorbAll i es).2) := by
  induction es generalizing h with
  | nil => rfl
  | cons e rest ih => simp only [absorbAll, absorb_seasoned, ih]

theorem afterFeed_seasoned (i : ℕ) (fr : Feed.Result V H R) :
    (h.seasoned b).afterFeed i (Feed.Result.seasoned (b.callbacks i) (b.pushes i) fr) =
      Result.seasoned b (h.afterFeed i fr) := by
  have feeds : ({ h.seasoned b with
        feeds := (h.seasoned b).feeds.set i (fr.state.seasoned (b.callbacks i) (b.pushes i)) } : Hub V H R) =
      ({ h with feeds := h.feeds.set i fr.state } : Hub V H R).seasoned b := by
    rw [set_seasoned]
    rfl
  have absorbed := absorbAll_seasoned b { h with feeds := h.feeds.set i fr.state } i fr.effects
  rw [← feeds] at absorbed
  simp only [afterFeed, Feed.Result.seasoned, absorbed]
  rfl

/-- A hub lets a feed make a step that has been in use. -/
theorem onFeed_seasoned {i : ℕ} {step step' : Feed V H R → Option (Feed.Result V H R)}
    (same : ∀ f, h.feeds[i]? = some f →
      step' (f.seasoned (b.callbacks i) (b.pushes i)) = (step f).map (Feed.Result.seasoned (b.callbacks i) (b.pushes i))) :
    (h.seasoned b).onFeed i step' = (h.onFeed i step).map (Result.seasoned b) := by
  unfold onFeed
  rw [getElem?_seasoned]
  cases there : h.feeds[i]? with
  | none => rfl
  | some f =>
    simp only [Option.map_some, same f there, Option.map_map]
    congr 1
    funext fr
    exact afterFeed_seasoned b h i fr

end Seasoned

/-! ### Steps -/

section Step

variable [SignalValue V] {h : Hub V H R} (apart : ∀ i f, h.feeds[i]? = some f → f.epoch ∉ b.callbacks i)
include apart

theorem onFeed_step_seasoned (i : ℕ) {l : FeedLabel V H R}
    (fresh : ∀ epoch payload, l = .invoke epoch payload → epoch ∉ b.callbacks i) :
    (h.seasoned b).onFeed i (·.step (l.seasoned (b.pushes i))) = (h.onFeed i (·.step l)).map (Result.seasoned b) :=
  onFeed_seasoned b h fun f there => Feed.step_seasoned _ _ f (apart i f there) fresh

theorem act_seasoned (m : HubMove V H) : (h.seasoned b).act (m.seasoned b) = (h.act m).map (Result.seasoned b) := by
  have life : (h.seasoned b).life = h.life := rfl
  have requests : (h.seasoned b).requests = h.requests := rfl
  have pool : (h.seasoned b).pool = h.pool.seasoned b.flushes := rfl
  have entered := fun i request => onFeed_step_seasoned b apart i (l := .enter request) (by simp)
  cases m with
  | draw key handler =>
    simp only [HubMove.seasoned, act, life, route_seasoned]
    cases h.life with
    | held => cases h.route key <;> rfl
    | _ => rfl
  | subscribe token =>
    simp only [HubMove.seasoned, act, requests, feedOf?_seasoned]
    cases h.requests.find? (·.token = token) with
    | none => rfl
    | some q =>
      dsimp only
      cases h.feedOf? q.key.id with
      | none => rfl
      | some i =>
        exact onFeed_step_seasoned (h := { h with requests := h.requests.filter (·.token ≠ token) }) b apart i
          (l := .enter (.subscribe q.key.id token q.handler)) (by simp)
  | unsubscribe signal token =>
    simp only [HubMove.seasoned, act, life, feedOf?_seasoned]
    cases h.life with
    | held =>
      cases h.feedOf? signal with
      | none => rfl
      | some i => exact entered i (.unsubscribe signal token)
    | _ => rfl
  | refresh i =>
    simp only [HubMove.seasoned, act, life]
    cases h.life with
    | held => exact entered i .refresh
    | _ => rfl
  | shutdown i =>
    simp only [HubMove.seasoned, act, life]
    cases h.life with
    | held => exact entered i .shutdown
    | _ => rfl
  | advance i move => exact onFeed_step_seasoned b apart i (l := .advance move) (by simp)
  | take w =>
    simp only [HubMove.seasoned, act, pool, WorkerPool.take_seasoned, subscribersOf_seasoned, Option.map_map]
    rfl
  | call w =>
    simp only [HubMove.seasoned, act, callNext, pool, WorkerPool.current?_seasoned, WorkerPool.setCurrent_seasoned]
    split <;> rfl
  | returned w panicked =>
    have catches : (h.pool.seasoned b.flushes).catches = h.pool.catches := rfl
    simp only [HubMove.seasoned, act, callReturned, pool, WorkerPool.current?_seasoned, WorkerPool.setCurrent_seasoned,
      WorkerPool.collapse_seasoned, catches]
    split
    · split
      · rfl
      split <;> rfl
    · rfl
  | finish w =>
    simp only [HubMove.seasoned, act, pool, WorkerPool.current?_seasoned, WorkerPool.finish_seasoned]
    split <;> rfl
  | stop w =>
    simp only [HubMove.seasoned, act, pool, isAbandoned_seasoned, WorkerPool.isIdle_seasoned, WorkerPool.collapse_seasoned]
    split <;> rfl
  | startFlush =>
    simp only [HubMove.seasoned, act, pool, WorkerPool.startFlush_seasoned]
    rfl
  | mark n =>
    simp only [HubMove.seasoned, act, pool, WorkerPool.mark_seasoned, Option.map_map]
    rfl
  | resolve n =>
    simp only [HubMove.seasoned, act, pool, WorkerPool.resolve_seasoned, Option.map_map]
    rfl
  | clone =>
    simp only [HubMove.seasoned, act, life]
    split <;> rfl
  | drop =>
    simp only [HubMove.seasoned, act, life, requests, isQuiet_seasoned]
    split
    · rfl
    · split <;> rfl
    · rfl
  | close =>
    simp only [HubMove.seasoned, act, life, isQuiet_seasoned, length_seasoned]
    cases h.life with
    | closing i =>
      dsimp only
      split
      · rfl
      split
      · exact onFeed_step_seasoned (h := { h with life := .closing (i + 1) }) b apart i (l := .enter .shutdown) (by simp)
      · exact congrArg (fun g => (some (quietly g) : Option (Result V H R))) (letGo_seasoned b h)
    | _ => rfl

/-- **What a hub does does not depend on what is over.** -/
theorem step_seasoned {l : HubLabel V H R} (fresh : ∀ i epoch payload, l = .invoke i epoch payload → epoch ∉ b.callbacks i) :
    (h.seasoned b).step (l.seasoned b) = (h.step l).map (Result.seasoned b) := by
  cases l with
  | move m => exact act_seasoned b apart m
  | hear i reply => exact onFeed_step_seasoned b apart i (l := .hear reply) (by simp)
  | invoke i epoch payload =>
    refine onFeed_step_seasoned b apart i (l := .invoke epoch payload) fun epoch' payload' eq => ?_
    obtain ⟨rfl, rfl⟩ := FeedLabel.invoke.inj eq
    exact fresh i epoch payload rfl
  | use i u =>
    cases u with
    | activate => exact onFeed_step_seasoned b apart i (l := .enter .activate) (by simp)
    | deactivate => exact onFeed_step_seasoned b apart i (l := .enter .deactivate) (by simp)
    | refresh => exact onFeed_step_seasoned b apart i (l := .enter .refresh) (by simp)
    | clone => exact onFeed_step_seasoned b apart i (l := .clone) (by simp)
    | drop => exact onFeed_step_seasoned b apart i (l := .drop) (by simp)

end Step

end Hub

end LazyHub
