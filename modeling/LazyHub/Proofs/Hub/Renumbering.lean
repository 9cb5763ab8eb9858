import LazyHub.Proofs.Feed.Renumbering
import LazyHub.Proofs.Hub.Transition

/-!
# Hubs by other numbers

`Hub.renumber` gives the tokens of a hub and the epochs of its feeds other numbers. What a hub does does not
depend on them (`Hub.step_renumber`).
-/

namespace LazyHub

variable {V H R : Type}

/-! ### Jobs that are being done -/

/-- A worker that holds something else of the job it does. -/
def Worker.mapCurrent {J D E : Type} (g : D → E) (x : Worker J D) : Worker J E := ⟨x.queue, x.current.map g, x.alive⟩

namespace WorkerPool

variable {J D E : Type} (g : D → E) (p : WorkerPool J D)

/-- A pool whose workers hold something else of the jobs they do. -/
def mapCurrent : WorkerPool J E := ⟨p.workers.map (·.mapCurrent g), p.catches, p.flushes, p.flushCount⟩

theorem mapCurrent_ofSize (workers : Nat) (catches : Bool) :
    (ofSize workers catches : WorkerPool J D).mapCurrent g = ofSize workers catches := by
  rw [mapCurrent, ofSize, List.map_replicate]
  rfl

theorem modifyWorker_mapCurrent (change : Worker J D → Worker J D) (change' : Worker J E → Worker J E)
    (same : ∀ x : Worker J D, change' (x.mapCurrent g) = (change x).mapCurrent g) (w : Nat) :
    (p.mapCurrent g).modifyWorker w change' = (p.modifyWorker w change).mapCurrent g := by
  simp only [modifyWorker, mapCurrent]
  rw [modify_map _ change change' same]

@[simp] theorem size_mapCurrent : (p.mapCurrent g).size = p.size := List.length_map _

@[simp] theorem getElem?_mapCurrent (w : Nat) :
    (p.mapCurrent g).workers[w]? = p.workers[w]?.map (·.mapCurrent g) :=
  List.getElem?_map

theorem send_mapCurrent (w : Nat) (parcel : Parcel J) :
    (p.mapCurrent g).send w parcel = ((p.send w parcel).1, (p.send w parcel).2.mapCurrent g) := by
  have alive : ((p.mapCurrent g).workers[w]?.map (·.alive)) = p.workers[w]?.map (·.alive) := by
    rw [getElem?_mapCurrent, Option.map_map]
    rfl
  simp only [send, alive]
  split
  · exact congrArg (true, ·) (modifyWorker_mapCurrent g p _ _ (fun _ => rfl) w)
  · rfl

theorem post_mapCurrent (signal : SignalId) (job : J) :
    (p.mapCurrent g).post signal job = ((p.post signal job).1, (p.post signal job).2.mapCurrent g) := by
  simp only [post, shard, size_mapCurrent]
  exact send_mapCurrent g p _ _

theorem mark_mapCurrent (number : Nat) : (p.mapCurrent g).mark number = (p.mark number).map (mapCurrent g) := by
  have flush : (p.mapCurrent g).flush? number = p.flush? number := rfl
  unfold mark
  rw [flush, size_mapCurrent]
  cases p.flush? number with
  | none => rfl
  | some f =>
    dsimp only
    split
    · rw [send_mapCurrent]
      rfl
    · rfl

theorem resolve_mapCurrent (number : Nat) :
    (p.mapCurrent g).resolve number = (p.resolve number).map (mapCurrent g) := by
  have resolved : (p.mapCurrent g).isResolved number = p.isResolved number := by
    unfold isResolved
    rw [size_mapCurrent]
    rfl
  unfold resolve
  rw [resolved]
  split <;> rfl

@[simp] theorem next?_mapCurrent (w : Nat) : (p.mapCurrent g).next? w = p.next? w := by
  simp only [next?, getElem?_mapCurrent]
  cases p.workers[w]? with
  | none => rfl
  | some x => simp [Worker.mapCurrent]

theorem take_mapCurrent (w : Nat) (start : SignalId → J → D) (start' : SignalId → J → E)
    (same : ∀ signal job, start' signal job = g (start signal job)) :
    (p.mapCurrent g).take w start' = (p.take w start).map (mapCurrent g) := by
  unfold take
  rw [next?_mapCurrent]
  split
  · refine congrArg some (modifyWorker_mapCurrent g p _ _ (fun x => ?_) w)
    simp [same, Worker.mapCurrent]
  · have taken := modifyWorker_mapCurrent g p (fun x => { x with queue := x.queue.tail })
      (fun x => { x with queue := x.queue.tail }) (fun _ => rfl) w
    rw [taken]
    rfl
  · rfl

@[simp] theorem current?_mapCurrent (w : Nat) : (p.mapCurrent g).current? w = (p.current? w).map g := by
  simp only [current?, getElem?_mapCurrent]
  cases p.workers[w]? <;> rfl

theorem setCurrent_mapCurrent (w : Nat) (d : D) : (p.mapCurrent g).setCurrent w (g d) = (p.setCurrent w d).mapCurrent g :=
  modifyWorker_mapCurrent g p _ _ (fun _ => rfl) w

theorem finish_mapCurrent (w : Nat) : (p.mapCurrent g).finish w = (p.finish w).mapCurrent g :=
  modifyWorker_mapCurrent g p _ _ (fun _ => rfl) w

theorem collapse_mapCurrent (w : Nat) : (p.mapCurrent g).collapse w = (p.collapse w).mapCurrent g := by
  unfold collapse
  have ended := modifyWorker_mapCurrent g p (fun _ => { queue := [], current := none, alive := false })
    (fun _ => { queue := [], current := none, alive := false }) (fun _ => rfl) w
  rw [ended]
  rfl

@[simp] theorem isIdle_mapCurrent (w : Nat) : (p.mapCurrent g).isIdle w = p.isIdle w := by
  simp only [isIdle, getElem?_mapCurrent]
  cases p.workers[w]? with
  | none => rfl
  | some x => simp [Worker.mapCurrent]

end WorkerPool

/-! ### Hubs -/

variable (τ : ℕ ↪o ℕ) (δ : ℕ → ℕ ↪o ℕ)

/-- A delivery to subscribers whose tokens have other numbers. -/
def Delivery.renumber (d : Delivery V H) : Delivery V H :=
  { d with
    waiting := d.waiting.map fun e => (e.1.renumber τ, e.2)
    calling := d.calling.map fun e => (e.1.renumber τ, e.2) }

theorem Delivery.renumber_mk (signal : SignalId) (value : V) (waiting : List (Token × H)) (calling : Option (Token × H)) :
    Delivery.renumber τ ⟨signal, value, waiting, calling⟩ =
      ⟨signal, value, waiting.map fun e => (e.1.renumber τ, e.2), calling.map fun e => (e.1.renumber τ, e.2)⟩ := rfl

/-- A request whose token has another number. -/
def Request.renumber (q : Request H) : Request H := { q with token := q.token.renumber τ }

/-- A move whose token has another number. -/
def HubMove.renumber : HubMove V H → HubMove V H
  | .subscribe token => .subscribe (token.renumber τ)
  | .unsubscribe signal token => .unsubscribe signal (token.renumber τ)
  | m => m

/-- A step of a hub whose token or epoch has another number. -/
def HubLabel.renumber : HubLabel V H R → HubLabel V H R
  | .move m => .move (m.renumber τ)
  | .invoke i epoch payload => .invoke i (δ i epoch) payload
  | l => l

/-- An effect whose token or epoch has another number. -/
def HubEffect.renumber : HubEffect V H → HubEffect V H
  | .asked i call => .asked i (call.renumber (δ i))
  | .called token handler signal value => .called (token.renumber τ) handler signal value
  | .noted entry => .noted (entry.renumber τ)
  | e => e

namespace Hub

/-- A hub whose tokens, and whose feeds' epochs, have other numbers. -/
def renumber (h : Hub V H R) : Hub V H R where
  feeds := h.feeds.mapIdx fun i f => f.renumber τ (δ i)
  pool := h.pool.mapCurrent (·.renumber τ)
  nextToken := τ h.nextToken
  requests := h.requests.map (·.renumber τ)
  life := h.life

/-- What a step leaves behind, where tokens and epochs have other numbers. -/
def Result.renumber (r : Result V H R) : Result V H R := r.map (·.renumber τ δ) (·.renumber τ δ)

section Renumber

variable (h : Hub V H R)

@[simp] theorem renumber_life : (h.renumber τ δ).life = h.life := rfl

@[simp] theorem renumber_pool : (h.renumber τ δ).pool = h.pool.mapCurrent (·.renumber τ) := rfl

@[simp] theorem renumber_requests : (h.renumber τ δ).requests = h.requests.map (·.renumber τ) := rfl

@[simp] theorem renumber_nextToken : (h.renumber τ δ).nextToken = τ h.nextToken := rfl

@[simp] theorem getElem?_renumber (i : ℕ) :
    (h.renumber τ δ).feeds[i]? = h.feeds[i]?.map (·.renumber τ (δ i)) := List.getElem?_mapIdx

@[simp] theorem length_renumber : (h.renumber τ δ).feeds.length = h.feeds.length := List.length_mapIdx

theorem set_renumber (i : ℕ) (f : Feed V H R) :
    (h.renumber τ δ).feeds.set i (f.renumber τ (δ i)) =
      (h.feeds.set i f).mapIdx fun i f => f.renumber τ (δ i) := by
  apply List.ext_getElem?
  intro j
  simp only [List.getElem?_set, getElem?_renumber, length_renumber, List.getElem?_mapIdx]
  split
  · rename_i eq
    subst eq
    split <;> rfl
  · rfl

theorem mem_renumber {f : Feed V H R} :
    f ∈ (h.renumber τ δ).feeds ↔ ∃ (i : ℕ) (g : Feed V H R), h.feeds[i]? = some g ∧ f = g.renumber τ (δ i) := by
  rw [List.mem_iff_getElem?]
  refine exists_congr fun i => ?_
  rw [getElem?_renumber, Option.map_eq_some_iff]
  exact exists_congr fun g => and_congr_right fun _ => eq_comm

/-- What holds of every feed of a hub does not depend on the numbers, if it does not for each feed. -/
theorem all_renumber {p : Feed V H R → Bool} (same : ∀ (δ : ℕ ↪o ℕ) f, p (f.renumber τ δ) = p f) :
    (h.renumber τ δ).feeds.all p = h.feeds.all p := by
  rw [Bool.eq_iff_iff, List.all_eq_true, List.all_eq_true]
  constructor
  · intro all f mem
    obtain ⟨i, there⟩ := List.mem_iff_getElem?.1 mem
    rw [← same (δ i)]
    exact all _ ((mem_renumber τ δ h).2 ⟨i, f, there, rfl⟩)
  · intro all f mem
    obtain ⟨i, g, there, rfl⟩ := (mem_renumber τ δ h).1 mem
    rw [same]
    exact all g (List.mem_of_getElem? there)

@[simp] theorem isQuiet_renumber : (h.renumber τ δ).isQuiet = h.isQuiet :=
  all_renumber τ δ h fun _ _ => Option.isNone_map

@[simp] theorem isAbandoned_renumber : (h.renumber τ δ).isAbandoned = h.isAbandoned := by
  unfold isAbandoned
  rw [all_renumber τ δ h fun _ f => by rw [Feed.owners_renumber, Feed.renumber_retiring]]
  rfl

theorem letGo_renumber : (h.renumber τ δ).letGo = h.letGo.renumber τ δ := by
  have feeds : (h.feeds.mapIdx fun i f => f.renumber τ (δ i)).map (fun f => { f with handles := f.handles - 1 }) =
      (h.feeds.map fun f => { f with handles := f.handles - 1 }).mapIdx fun i f => f.renumber τ (δ i) := by
    apply List.ext_getElem?
    intro i
    simp only [List.getElem?_map, List.getElem?_mapIdx]
    cases h.feeds[i]? <;> rfl
  simp only [letGo, renumber, feeds]

theorem outlets_renumber :
    (h.renumber τ δ).outlets = h.outlets.map fun x => (x.1, x.2.1, x.2.2.renumber τ) := by
  have numbered : (h.renumber τ δ).feeds.zipIdx = h.feeds.zipIdx.map fun x => (x.1.renumber τ (δ x.2), x.2) := by
    apply List.ext_getElem?
    intro i
    simp only [List.getElem?_zipIdx, getElem?_renumber, List.getElem?_map]
    cases h.feeds[i]? <;> simp
  simp only [outlets, numbered, List.flatMap_map, List.map_flatMap, List.map_map]
  simp [Function.comp_def]

@[simp] theorem find?_renumber (signal : SignalId) :
    (h.renumber τ δ).find? signal = (h.find? signal).map fun x => (x.1, x.2.1, x.2.2.renumber τ) := by
  simp only [find?, outlets_renumber, List.find?_map]
  rfl

@[simp] theorem feedOf?_renumber (signal : SignalId) : (h.renumber τ δ).feedOf? signal = h.feedOf? signal := by
  simp only [feedOf?, find?_renumber, Option.map_map]
  rfl

@[simp] theorem route_renumber (key : Key) : (h.renumber τ δ).route key = h.route key := by
  simp only [route, find?_renumber]
  cases h.find? key.id <;> rfl

@[simp] theorem cached?_renumber (signal : SignalId) : (h.renumber τ δ).cached? signal = h.cached? signal := by
  simp only [cached?, find?_renumber, Option.map_map]
  rfl

@[simp] theorem subscribersOf_renumber (i : ℕ) (signal : SignalId) :
    (h.renumber τ δ).subscribersOf i signal = (h.subscribersOf i signal).map fun e => (e.1.renumber τ, e.2) := by
  simp only [subscribersOf, getElem?_renumber]
  cases h.feeds[i]? with
  | none => rfl
  | some f =>
    simp only [Option.map_some, Option.bind_some, Feed.outlet?_renumber]
    cases f.outlet? signal <;> rfl

/-! ### Steps -/

theorem absorb_renumber (i : ℕ) (e : FeedEffect V) :
    (h.renumber τ δ).absorb i (e.renumber τ (δ i)) =
      ((h.absorb i e).1.renumber τ δ, (h.absorb i e).2.map (·.renumber τ δ)) := by
  cases e with
  | owed signal value =>
    simp only [FeedEffect.renumber, absorb, renumber_pool, WorkerPool.post_mapCurrent]
    refine Prod.ext rfl ?_
    dsimp only
    split <;> rfl
  | _ => rfl

theorem absorbAll_renumber (i : ℕ) (es : List (FeedEffect V)) :
    (h.renumber τ δ).absorbAll i (es.map (·.renumber τ (δ i))) =
      ((h.absorbAll i es).1.renumber τ δ, (h.absorbAll i es).2.map (·.renumber τ δ)) := by
  induction es generalizing h with
  | nil => rfl
  | cons e rest ih => simp only [List.map_cons, absorbAll, absorb_renumber, ih, List.map_append]

theorem afterFeed_renumber (i : ℕ) (fr : Feed.Result V H R) :
    (h.renumber τ δ).afterFeed i (Feed.Result.renumber τ (δ i) fr) = Result.renumber τ δ (h.afterFeed i fr) := by
  have feeds : ({ h.renumber τ δ with feeds := (h.renumber τ δ).feeds.set i (fr.state.renumber τ (δ i)) } : Hub V H R) =
      ({ h with feeds := h.feeds.set i fr.state } : Hub V H R).renumber τ δ := by
    rw [set_renumber]
    rfl
  have absorbed := absorbAll_renumber τ δ { h with feeds := h.feeds.set i fr.state } i fr.effects
  rw [← feeds] at absorbed
  simp only [afterFeed, Feed.Result.renumber, Stepped.map, absorbed]
  rfl

/-- A hub lets a feed make a step by other numbers. -/
theorem onFeed_renumber {i : ℕ} {step step' : Feed V H R → Option (Feed.Result V H R)}
    (same : ∀ f, h.feeds[i]? = some f →
      step' (f.renumber τ (δ i)) = (step f).map (Feed.Result.renumber τ (δ i))) :
    (h.renumber τ δ).onFeed i step' = (h.onFeed i step).map (Result.renumber τ δ) := by
  unfold onFeed
  rw [getElem?_renumber]
  cases there : h.feeds[i]? with
  | none => rfl
  | some f =>
    simp only [Option.map_some, same f there, Option.map_map]
    congr 1
    funext fr
    exact afterFeed_renumber τ δ h i fr

end Renumber

section Step

variable [SignalValue V] {h : Hub V H R}

variable (next : τ (h.nextToken + 1) = τ h.nextToken + 1)
  (epochs : ∀ i f, h.feeds[i]? = some f → δ i (f.epoch + 1) = δ i f.epoch + 1)
include epochs

theorem onFeed_step_renumber (i : ℕ) (fl : FeedLabel V H R) :
    (h.renumber τ δ).onFeed i (·.step (fl.renumber τ (δ i))) = (h.onFeed i (·.step fl)).map (Result.renumber τ δ) :=
  onFeed_renumber τ δ h fun f there => Feed.step_renumber τ (δ i) (epochs i f there) fl

include next

theorem act_renumber (m : HubMove V H) :
    (h.renumber τ δ).act (m.renumber τ) = (h.act m).map (Result.renumber τ δ) := by
  have entered := fun i request => onFeed_step_renumber τ δ epochs i (.enter request)
  cases m with
  | draw key handler =>
    simp only [HubMove.renumber, act, renumber_life, route_renumber]
    cases h.life with
    | held =>
      cases h.route key with
      | ok => simp [renumber, Result.renumber, Stepped.map, next, Request.renumber, Token.renumber]
      | error => rfl
    | _ => rfl
  | subscribe token =>
    have drawn : (h.requests.map (·.renumber τ)).find? (·.token = token.renumber τ) =
        (h.requests.find? (·.token = token)).map (·.renumber τ) := by
      have same : (fun q : Request H => decide (q.token = token.renumber τ)) ∘ Request.renumber τ =
          fun q => decide (q.token = token) := funext fun q => by simp [Request.renumber]
      rw [List.find?_map, same]
    have left : ({ h.renumber τ δ with
          requests := (h.requests.map (·.renumber τ)).filter (·.token ≠ token.renumber τ) } : Hub V H R) =
        ({ h with requests := h.requests.filter (·.token ≠ token) } : Hub V H R).renumber τ δ := by
      simp [renumber, List.filter_map, Function.comp_def, Request.renumber]
    simp only [HubMove.renumber, act, renumber_requests, drawn]
    cases h.requests.find? (·.token = token) with
    | none => rfl
    | some q =>
      have key : (q.renumber τ).key = q.key := rfl
      have handler : (q.renumber τ).handler = q.handler := rfl
      simp only [Option.map_some, key, handler, feedOf?_renumber, left]
      cases h.feedOf? q.key.id with
      | none => rfl
      | some i =>
        exact onFeed_step_renumber (h := { h with requests := h.requests.filter (·.token ≠ token) }) τ δ epochs i
          (.enter (.subscribe q.key.id token q.handler))
  | unsubscribe signal token =>
    simp only [HubMove.renumber, act, renumber_life, feedOf?_renumber]
    cases h.life with
    | held =>
      cases h.feedOf? signal with
      | none => rfl
      | some i => exact entered i (.unsubscribe signal token)
    | _ => rfl
  | refresh i =>
    simp only [HubMove.renumber, act, renumber_life]
    cases h.life with
    | held => exact entered i .refresh
    | _ => rfl
  | shutdown i =>
    simp only [HubMove.renumber, act, renumber_life]
    cases h.life with
    | held => exact entered i .shutdown
    | _ => rfl
  | advance i move => exact onFeed_step_renumber τ δ epochs i (.advance move)
  | take w =>
    have taken := WorkerPool.take_mapCurrent (·.renumber τ) h.pool w
      (fun signal notice => { signal, value := notice.value, waiting := h.subscribersOf notice.feed signal })
      (fun signal notice =>
        { signal, value := notice.value, waiting := (h.renumber τ δ).subscribersOf notice.feed signal })
      fun signal notice => by simp [Delivery.renumber]
    simp only [HubMove.renumber, act, renumber_pool, taken, Option.map_map]
    rfl
  | call w =>
    simp only [HubMove.renumber, act, callNext, renumber_pool, WorkerPool.current?_mapCurrent]
    cases h.pool.current? w with
    | none => rfl
    | some d =>
      obtain ⟨signal, value, waiting, calling⟩ := d
      cases waiting with
      | nil => cases calling <;> rfl
      | cons e rest =>
        cases calling with
        | some => rfl
        | none =>
          have called := WorkerPool.setCurrent_mapCurrent (·.renumber τ) h.pool w ⟨signal, value, rest, some e⟩
          exact congrArg (fun pool => (some ⟨{ h.renumber τ δ with pool }, _, none⟩ : Option (Result V H R))) called
  | returned w panicked =>
    simp only [HubMove.renumber, act, callReturned, renumber_pool, WorkerPool.current?_mapCurrent]
    cases h.pool.current? w with
    | none => rfl
    | some d =>
      obtain ⟨signal, value, waiting, calling⟩ := d
      cases calling with
      | none => rfl
      | some e =>
        have catches : (h.pool.mapCurrent (·.renumber τ)).catches = h.pool.catches := rfl
        have went := WorkerPool.setCurrent_mapCurrent (·.renumber τ) h.pool w ⟨signal, value, waiting, none⟩
        have ended := WorkerPool.collapse_mapCurrent (·.renumber τ) h.pool w
        have went' := fun es => congrArg (fun pool => (some ⟨{ h.renumber τ δ with pool }, es, none⟩ : Option (Result V H R))) went
        have ended' := congrArg (fun pool => (some ⟨{ h.renumber τ δ with pool }, [], none⟩ : Option (Result V H R))) ended
        cases panicked with
        | false => exact went' []
        | true =>
          cases caught : h.pool.catches with
          | true =>
            simp only [Option.map_some, Delivery.renumber_mk, catches, caught, Bool.not_true, Bool.false_eq_true, if_false,
              if_true]
            exact went' _
          | false =>
            simp only [Option.map_some, Delivery.renumber_mk, catches, caught, Bool.not_true, Bool.false_eq_true, if_false]
            exact ended'
  | finish w =>
    simp only [HubMove.renumber, act, renumber_pool, WorkerPool.current?_mapCurrent]
    cases h.pool.current? w with
    | none => rfl
    | some d =>
      obtain ⟨signal, value, waiting, calling⟩ := d
      have finished := WorkerPool.finish_mapCurrent (·.renumber τ) h.pool w
      cases waiting <;> cases calling <;> try rfl
      exact congrArg (fun pool => (some ⟨{ h.renumber τ δ with pool }, [], none⟩ : Option (Result V H R))) finished
  | stop w =>
    have ended := WorkerPool.collapse_mapCurrent (·.renumber τ) h.pool w
    simp only [HubMove.renumber, act, renumber_pool, isAbandoned_renumber, WorkerPool.isIdle_mapCurrent, ended]
    split <;> rfl
  | startFlush => rfl
  | mark n =>
    simp only [HubMove.renumber, act, renumber_pool, WorkerPool.mark_mapCurrent, Option.map_map]
    rfl
  | resolve n =>
    simp only [HubMove.renumber, act, renumber_pool, WorkerPool.resolve_mapCurrent, Option.map_map]
    rfl
  | clone =>
    simp only [HubMove.renumber, act, renumber_life]
    cases h.life with
    | held n => cases n <;> rfl
    | _ => rfl
  | drop =>
    simp only [HubMove.renumber, act, renumber_life, renumber_requests, List.isEmpty_map, isQuiet_renumber]
    cases h.life with
    | held n =>
      cases n with
      | zero => rfl
      | succ n =>
        cases n with
        | succ => rfl
        | zero =>
          dsimp only
          split <;> rfl
    | _ => rfl
  | close =>
    simp only [HubMove.renumber, act, renumber_life, isQuiet_renumber, length_renumber]
    cases h.life with
    | closing i =>
      dsimp only
      split
      · rfl
      split
      · exact onFeed_step_renumber (h := { h with life := .closing (i + 1) }) τ δ epochs i (.enter .shutdown)
      · exact congrArg (fun g => (some (quietly g) : Option (Result V H R))) (letGo_renumber τ δ h)
    | _ => rfl

/-- **What a hub does does not depend on the numbers.** -/
theorem step_renumber (l : HubLabel V H R) :
    (h.renumber τ δ).step (l.renumber τ δ) = (h.step l).map (Result.renumber τ δ) := by
  cases l with
  | move m => exact act_renumber τ δ next epochs m
  | hear i reply => exact onFeed_step_renumber τ δ epochs i (.hear reply)
  | invoke i epoch payload => exact onFeed_step_renumber τ δ epochs i (.invoke epoch payload)
  | use i u =>
    cases u with
    | activate => exact onFeed_step_renumber τ δ epochs i (.enter .activate)
    | deactivate => exact onFeed_step_renumber τ δ epochs i (.enter .deactivate)
    | refresh => exact onFeed_step_renumber τ δ epochs i (.enter .refresh)
    | clone => exact onFeed_step_renumber τ δ epochs i .clone
    | drop => exact onFeed_step_renumber τ δ epochs i .drop

end Step

end Hub

end LazyHub
