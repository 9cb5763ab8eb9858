import LazyHub.Proofs.Feed.AsIf
import LazyHub.Proofs.Hub.Sound

/-!
# A hub as if an operation were not under way

`Hub.asIf` is a hub as those see it who have nothing to do with an operation under way: a subscription that
waits is not there, and the holder of the feed's state lock is doing something else, or nothing. What the others
do they can do all the same, and it has the same effects (`Transition.asIf`).
-/

namespace LazyHub

variable {V H R : Type}

namespace Hub

/-- The hub as if the subscription with a token did not wait to reach its feed, and as if the holder of a feed's
state lock were doing something else. -/
def asIf (n i : Nat) (φ : Option (Section V H R) → Option (Section V H R)) (χ : List Nat → List Nat) (h : Hub V H R) :
    Hub V H R :=
  { h with feeds := h.feeds.modify i (·.asIf φ χ), requests := h.requests.filter (·.token ≠ ⟨n⟩) }

/-- What a step leaves behind, as if the operation were not under way. -/
def Result.asIf (n i : Nat) (φ : Option (Section V H R) → Option (Section V H R)) (χ : List Nat → List Nat)
    (r : Result V H R) : Result V H R :=
  { r with state := r.state.asIf n i φ χ }

/-- The outlets of a hub are those of its feeds. -/
theorem outlets_congr {h k : Hub V H R}
    (same : k.feeds.map (fun f => (f.kind, f.outlets)) = h.feeds.map fun f => (f.kind, f.outlets)) : k.outlets = h.outlets := by
  have numbered : ∀ k : Hub V H R, k.outlets =
      ((k.feeds.map fun f => (f.kind, f.outlets)).zipIdx.flatMap fun x => x.1.2.map fun o => (x.2, x.1.1, o)) := by
    intro k
    rw [List.zipIdx_map, List.flatMap_map]
    rfl
  rw [numbered, numbered, same]

section AsIf

variable {n i : Nat} {φ : Option (Section V H R) → Option (Section V H R)} {χ : List Nat → List Nat}

variable (h : Hub V H R)

/-- What does not depend on the state lock and the callbacks of a feed is the same. -/
theorem map_asIf {α : Type} {g : Feed V H R → α} (same : ∀ f : Feed V H R, g (f.asIf φ χ) = g f) :
    (h.asIf n i φ χ).feeds.map g = h.feeds.map g := by
  apply List.ext_getElem?
  intro j
  simp only [asIf, List.getElem?_map, List.getElem?_modify]
  split <;> cases h.feeds[j]? <;> simp [same]

theorem getElem?_asIf : (h.asIf n i φ χ).feeds[i]? = h.feeds[i]?.map (·.asIf φ χ) := by
  simp [asIf]

theorem getElem?_asIf_of_ne {j : Nat} (other : i ≠ j) : (h.asIf n i φ χ).feeds[j]? = h.feeds[j]? := by
  simp [asIf, other]

@[simp] theorem outlets_asIf : (h.asIf n i φ χ).outlets = h.outlets := outlets_congr (map_asIf h fun _ => rfl)

@[simp] theorem feedOf?_asIf (signal : SignalId) : (h.asIf n i φ χ).feedOf? signal = h.feedOf? signal := by
  simp only [feedOf?, find?, outlets_asIf]

@[simp] theorem route_asIf (key : Key) : (h.asIf n i φ χ).route key = h.route key := by
  simp only [route, find?, outlets_asIf]

@[simp] theorem subscribersOf_asIf (j : Nat) (signal : SignalId) :
    (h.asIf n i φ χ).subscribersOf j signal = h.subscribersOf j signal := by
  have outlet : ∀ k : Hub V H R, k.feeds[j]?.bind (·.outlet? signal) = (k.feeds.map (·.outlet? signal))[j]?.join := by
    intro k
    rw [List.getElem?_map]
    cases k.feeds[j]? <;> rfl
  simp only [subscribersOf, outlet, map_asIf h (g := (·.outlet? signal)) fun _ => rfl]

theorem isQuiet_asIf (free : φ none = none) (quiet : h.isQuiet) : (h.asIf n i φ χ).isQuiet := by
  refine List.all_eq_true.2 fun f mem => ?_
  obtain ⟨j, there⟩ := List.mem_iff_getElem?.1 mem
  by_cases eq : i = j
  · subst eq
    obtain ⟨g, first, rfl⟩ := Option.map_eq_some_iff.1 ((getElem?_asIf h).symm.trans there)
    simp [Feed.asIf, free_of_isQuiet quiet (List.mem_of_getElem? first), free]
  · rw [getElem?_asIf_of_ne h eq] at there
    simp [free_of_isQuiet quiet (List.mem_of_getElem? there)]

@[simp] theorem isAbandoned_asIf : (h.asIf n i φ χ).isAbandoned = h.isAbandoned := by
  have all : ∀ k : Hub V H R, (k.feeds.all fun f => f.owners = 0 && !f.retiring) =
      (k.feeds.map fun f => decide (f.owners = 0) && !f.retiring).all id := by
    intro k
    rw [List.all_map]
    rfl
  simp only [isAbandoned, all, map_asIf h (g := fun f => decide (f.owners = 0) && !f.retiring) fun _ => rfl]
  rfl

theorem letGo_asIf : (h.asIf n i φ χ).letGo = h.letGo.asIf n i φ χ := by
  have feeds : (h.asIf n i φ χ).letGo.feeds = (h.letGo.asIf n i φ χ).feeds := by
    apply List.ext_getElem?
    intro j
    simp only [letGo, asIf, List.getElem?_map, List.getElem?_modify]
    split <;> cases h.feeds[j]? <;> rfl
  exact congrArg (fun feeds => ({ h.asIf n i φ χ with feeds, life := .closed } : Hub V H R)) feeds

/-! ### Steps of feeds -/

theorem absorbAll_asIf (j : Nat) (es : List (FeedEffect V)) :
    (h.asIf n i φ χ).absorbAll j es = ((h.absorbAll j es).1.asIf n i φ χ, (h.absorbAll j es).2) := by
  induction es generalizing h with
  | nil => rfl
  | cons e rest ih =>
    have first : (h.asIf n i φ χ).absorb j e = ((h.absorb j e).1.asIf n i φ χ, (h.absorb j e).2) := by
      cases e <;> rfl
    simp only [absorbAll, first, ih]

theorem afterFeed_asIf (fr : Feed.Result V H R) :
    (h.asIf n i φ χ).afterFeed i (fr.asIf φ χ) = (h.afterFeed i fr).asIf n i φ χ := by
  have feeds : (h.feeds.modify i (·.asIf φ χ)).set i (fr.state.asIf φ χ) = (h.feeds.set i fr.state).modify i (·.asIf φ χ) := by
    apply List.ext_getElem?
    intro j
    simp only [List.getElem?_set, List.getElem?_modify, List.length_modify]
    split
    · split <;> rfl
    · rfl
  have absorbed := absorbAll_asIf (n := n) (i := i) (φ := φ) (χ := χ) { h with feeds := h.feeds.set i fr.state } i fr.effects
  simp only [asIf, ← feeds] at absorbed
  simp only [afterFeed, Feed.Result.asIf, asIf, absorbed]
  rfl

theorem afterFeed_asIf_of_ne {j : Nat} (other : i ≠ j) (fr : Feed.Result V H R) :
    (h.asIf n i φ χ).afterFeed j fr = (h.afterFeed j fr).asIf n i φ χ := by
  have feeds : (h.feeds.modify i (·.asIf φ χ)).set j fr.state = (h.feeds.set j fr.state).modify i (·.asIf φ χ) := by
    apply List.ext_getElem?
    intro m
    simp only [List.getElem?_set, List.getElem?_modify, List.length_modify]
    split
    · rename_i eq
      subst eq
      simp [other]
    · rfl
  have absorbed := absorbAll_asIf (n := n) (i := i) (φ := φ) (χ := χ) { h with feeds := h.feeds.set j fr.state } j fr.effects
  simp only [asIf, ← feeds] at absorbed
  simp only [afterFeed, asIf, absorbed]
  rfl

variable {h}

/-- A label stands for the same step, unless it is the subscription's that is not there. -/
theorem serves_asIf {l : HubLabel V H R} {j : Nat} {fl : FeedLabel V H R} {g : Hub V H R} (serves : h.Serves l j fl g)
    (other : l ≠ .move (.subscribe ⟨n⟩)) (free : φ none = none) :
    (h.asIf n i φ χ).Serves l j fl (g.asIf n i φ χ) := by
  cases serves with
  | @subscribe _ request token drawn named routes =>
    have ne : token ≠ ⟨n⟩ := fun eq => other (eq ▸ rfl)
    have drawn' : (h.asIf n i φ χ).requests.find? (·.token = token) = some request := by
      rw [asIf, List.find?_filter, ← drawn]
      congr 1
      funext q
      by_cases eq : q.token = token <;> simp [eq, ne]
    have left : ({ h.asIf n i φ χ with
          requests := (h.asIf n i φ χ).requests.filter (·.token ≠ token) } : Hub V H R) =
        ({ h with requests := h.requests.filter (·.token ≠ token) } : Hub V H R).asIf n i φ χ := by
      simp only [asIf, List.filter_filter, Bool.and_comm]
    rw [← left]
    exact .subscribe drawn' named (by simpa using routes)
  | unsubscribe held routes => exact .unsubscribe held (by simpa using routes)
  | refresh held => exact .refresh held
  | shutdown held => exact .shutdown held
  | advance => exact .advance
  | close closing quiet more =>
    exact .close closing (isQuiet_asIf h free quiet) (by simpa [asIf] using more)
  | hear => exact .hear
  | invoke => exact .invoke
  | use made => exact .use made

variable [SignalValue V]

/-- **What others do** does not depend on the operation, as long as the steps of its feed do not. -/
theorem step_asIf {l : HubLabel V H R} {r : Result V H R} (made : h.step l = some r)
    (other : l ≠ .move (.subscribe ⟨n⟩)) (drawn : n < h.nextToken) (free : φ none = none)
    (feed : ∀ fl g f fr, h.Serves l i fl g → h.feeds[i]? = some f → f.step fl = some fr →
      (f.asIf φ χ).step fl = some (fr.asIf φ χ)) :
    (h.asIf n i φ χ).step l = some (r.asIf n i φ χ) := by
  have pool : (h.asIf n i φ χ).pool = h.pool := rfl
  cases transition_of_step made with
  | @feed _ j fl g f fr serves there step =>
    have serves' := serves_asIf (i := i) (χ := χ) serves other free
    by_cases eq : i = j
    · subst eq
      rw [← afterFeed_asIf]
      exact serves'.step ((getElem?_asIf h).trans (congrArg _ there)) (feed fl g f fr serves there step)
    · rw [← afterFeed_asIf_of_ne g eq]
      exact serves'.step ((getElem?_asIf_of_ne h eq).trans there) step
  | draw held routes =>
    obtain ⟨m, held⟩ := held
    have routes' : (h.asIf n i φ χ).route _ = _ := (route_asIf h _).trans routes
    have held' : (h.asIf n i φ χ).life = .held m := held
    have new : (⟨h.nextToken⟩ : Token) ≠ ⟨n⟩ := fun eq => absurd (Token.mk.inj eq) (Nat.ne_of_gt drawn)
    simp only [Hub.step, act, routes', held']
    simp [asIf, Result.asIf, new, held]
  | take taken =>
    simp only [Hub.step, act, subscribersOf_asIf]
    rw [pool, taken]
    rfl
  | call current =>
    simp only [Hub.step, act, callNext, pool, current]
    rfl
  | @returned w panicked _ _ _ _ _ current caught =>
    simp only [Hub.step, act, callReturned, pool, current]
    cases panicked with
    | false => rfl
    | true => simp only [caught rfl, Bool.not_true, Bool.false_eq_true, if_false, if_true]; rfl
  | @collapsed w d current uncaught =>
    obtain ⟨signal, value, waiting, calling⟩ := d
    cases calling with
    | none => simp [Hub.step, act, callReturned, current] at made
    | some e =>
      simp only [Hub.step, act, callReturned, pool, current, uncaught, Bool.not_true, Bool.false_eq_true, if_false]
      rfl
  | finish current =>
    simp only [Hub.step, act, pool, current]
    rfl
  | stop abandoned idle =>
    simp only [Hub.step, act, isAbandoned_asIf, pool, abandoned, idle, Bool.and_self, if_true]
    rfl
  | startFlush => rfl
  | mark marked =>
    simp only [Hub.step, act, pool, marked]
    rfl
  | resolve resolved =>
    simp only [Hub.step, act, pool, resolved]
    rfl
  | clone held | drop held =>
    have held' : (h.asIf n i φ χ).life = _ := held
    simp only [Hub.step, act, held']
    rfl
  | dropLast held undrawn quiet =>
    have held' : (h.asIf n i φ χ).life = _ := held
    have quiet' := isQuiet_asIf (n := n) (i := i) (χ := χ) h free quiet
    have undrawn' : (h.asIf n i φ χ).requests.isEmpty := by simp [asIf, undrawn]
    simp only [Hub.step, act, held', quiet', undrawn', Bool.and_self, if_true]
    rfl
  | @letGo next closing quiet all =>
    have closing' : (h.asIf n i φ χ).life = _ := closing
    have quiet' := isQuiet_asIf (n := n) (i := i) (χ := χ) h free quiet
    have all' : ¬ next < (h.asIf n i φ χ).feeds.length := by simpa [asIf] using all
    simp only [Hub.step, act, closing', quiet', all', Bool.not_true, Bool.false_eq_true, if_false, letGo_asIf]
    rfl

end AsIf

end Hub

end LazyHub
