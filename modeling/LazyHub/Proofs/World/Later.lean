import LazyHub.Proofs.Hub.Seasoning
import LazyHub.Proofs.World

/-!
# Worlds in later days

A world that has been in use has drawn tokens, its feeds have had epochs and pushes and have given callbacks, and
there were flushes. `World.later` is a world to which all of that has happened already, and is over. Nothing of it
shows but the numbers: a step is enabled in the one world if it is in the other, it has the same answer, and what it
leaves behind and does outside is the same by later numbers (`World.step_later`).
-/

namespace LazyHub

variable {V H R : Type}

namespace LocalProvider

variable {C D : Type} (f : C → D) (p : LocalProvider R C)

/-- A provider whose callback is another one. -/
def map (p : LocalProvider R C) : LocalProvider R D := { p with callback := p.callback.map fun c => (c.1, f c.2) }

theorem query_map : (p.map f).query = (p.query.1, p.query.2.map f) := by
  simp only [query, map]
  cases p.refuseQuery <;> rfl

theorem register_map (c : C) : (p.map f).register (f c) = ((p.register c).1, (p.register c).2.map f) := by
  simp only [register, map]
  cases p.refuseRegister with
  | some => rfl
  | none => cases p.callback <;> rfl

theorem unregister_map (registration : Registration) (thread : Thread) :
    (p.map f).unregister registration thread = ((p.unregister registration thread).1, (p.unregister registration thread).2.map f) := by
  simp only [unregister, map]
  cases p.refuseUnregister with
  | some => rfl
  | none =>
    cases p.callback with
    | none => rfl
    | some c =>
      simp only [Option.map_some]
      split <;> rfl

theorem refuse_map (call : ProviderCall) (message : String) : (p.map f).refuse call message = (p.refuse call message).map f := by
  cases call <;> rfl

theorem callback?_map : (p.map f).callback? = p.callback?.map f := by
  simp only [callback?, map, Option.map_map]
  rfl

theorem map_id' (p : LocalProvider R Nat) : p.map (· + 0) = p := by
  obtain ⟨_, callback, _, _, _, _, _, _, _, _, _⟩ := p
  cases callback <;> rfl

end LocalProvider

/-- Numbers that come after so many others. -/
def shift (n : ℕ) : ℕ ↪o ℕ := .ofStrictMono (· + n) fun _ _ lt => Nat.add_lt_add_right lt n

/-! ### Hubs -/

variable (b : Bygones)

/-- The callbacks that were given are of epochs that are over. -/
def Bygones.AreOver : Prop := ∀ i, ∀ epoch ∈ b.callbacks i, epoch < b.epochs i

/-- A move by later numbers. -/
def HubMove.later (m : HubMove V H) : HubMove V H := (m.renumber (shift b.tokens)).seasoned b

/-- A step of a hub by later numbers. -/
def HubLabel.later (l : HubLabel V H R) : HubLabel V H R :=
  (l.renumber (shift b.tokens) fun i => shift (b.epochs i)).seasoned b

/-- An effect by later numbers. -/
def HubEffect.later (e : HubEffect V H) : HubEffect V H := e.renumber (shift b.tokens) fun i => shift (b.epochs i)

/-- A feed in later days. -/
def Feed.later (i : ℕ) (f : Feed V H R) : Feed V H R :=
  (f.renumber (shift b.tokens) (shift (b.epochs i))).seasoned (b.callbacks i) (b.pushes i)

/-- A hub in later days. -/
def Hub.later (h : Hub V H R) : Hub V H R := (h.renumber (shift b.tokens) fun i => shift (b.epochs i)).seasoned b

variable {b}

theorem Hub.getElem?_later (h : Hub V H R) (i : ℕ) : (h.later b).feeds[i]? = h.feeds[i]?.map (·.later b i) := by
  rw [later, getElem?_seasoned, getElem?_renumber, Option.map_map]
  rfl

/-- **What a hub does does not depend on what is over**, but for the numbers. -/
theorem Hub.step_later [SignalValue V] (past : b.AreOver) (h : Hub V H R) (l : HubLabel V H R) :
    (h.later b).step (l.later b) = (h.step l).map (Stepped.map (·.later b) (·.later b)) := by
  -- by later numbers no epoch is that of a callback from before, be it a feed's or that of a callback which is invoked
  have apart : ∀ i f, (h.renumber (shift b.tokens) fun i => shift (b.epochs i)).feeds[i]? = some f →
      f.epoch ∉ b.callbacks i := by
    intro i f there given
    obtain ⟨g, -, rfl⟩ := Option.map_eq_some_iff.1 ((getElem?_renumber ..).symm.trans there)
    exact Nat.not_lt.2 (Nat.le_add_left ..) (past i _ given)
  have fresh : ∀ i epoch payload, l.renumber (shift b.tokens) (fun i => shift (b.epochs i)) = .invoke i epoch payload →
      epoch ∉ b.callbacks i := by
    intro i epoch payload is given
    cases l with
    | invoke j epoch' payload' =>
      obtain ⟨rfl, rfl, -⟩ := HubLabel.invoke.inj is
      exact Nat.not_lt.2 (Nat.le_add_left ..) (past _ _ given)
    | _ => cases is
  have next : ∀ n k : ℕ, shift n (k + 1) = shift n k + 1 := fun n k => Nat.add_right_comm k 1 n
  rw [later, HubLabel.later, step_seasoned b apart fresh, step_renumber _ _ (next ..) fun _ _ _ => next .., Option.map_map]
  rfl

/-! ### Worlds -/

variable (b) in
/-- A step of a world by later numbers. -/
def WorldLabel.later : WorldLabel V H R → WorldLabel V H R
  | .move m => .move (m.later b)
  | l => l

/-- A provider whose callback is of a later epoch. -/
def Source.later (d : ℕ) (s : Source R) : Source R := { s with provider := s.provider.map (· + d) }

namespace World

variable (b) in
/-- **A world in later days**: the hub has been in use, and the callbacks that are installed are of later epochs. -/
def later (w : World V H R) : World V H R := ⟨w.hub.later b, w.sources.mapIdx fun i s => s.later (b.epochs i)⟩

variable (w : World V H R) (i : ℕ)

theorem getElem?_later : (w.later b).sources[i]? = w.sources[i]?.map (·.later (b.epochs i)) := List.getElem?_mapIdx

theorem holder?_later : (w.later b).holder? i = (w.holder? i).map (·.renumber (shift b.tokens)) := by
  simp only [holder?, later, Hub.getElem?_later]
  cases w.hub.feeds[i]? <;> rfl

theorem set_later (s : Source R) :
    ({ w.later b with sources := (w.later b).sources.set i (s.later (b.epochs i)) } : World V H R) =
      ({ w with sources := w.sources.set i s } : World V H R).later b := by
  refine congrArg (World.mk _) (List.ext_getElem? fun j => ?_)
  rw [List.getElem?_mapIdx, List.getElem?_set, List.getElem?_set, getElem?_later, later, List.length_mapIdx]
  by_cases same : i = j
  · subst same
    simp only [if_true]
    split <;> rfl
  · rw [if_neg same, if_neg same]

theorem modifyProvider_later (f g : LocalProvider R Nat → LocalProvider R Nat)
    (same : ∀ p, g (p.map (· + b.epochs i)) = (f p).map (· + b.epochs i)) :
    (w.later b).modifyProvider i g = (w.modifyProvider i f).later b := by
  refine congrArg (World.mk _) (List.ext_getElem? fun j => ?_)
  rw [List.getElem?_modify, getElem?_later, List.getElem?_mapIdx, modifyProvider, List.getElem?_modify]
  cases w.sources[j]? with
  | none => rfl
  | some s =>
    by_cases here : i = j
    · subst here
      simp [Source.later, same]
    · simp [here]

theorem takeBack_later (es : List (HubEffect V H)) :
    (w.later b).takeBack (es.map (·.later b)) = (w.takeBack es).later b := by
  induction es generalizing w with
  | nil => rfl
  | cons e rest ih =>
    cases e with
    | released feed =>
      have changed := modifyProvider_later (b := b) w feed LocalProvider.takeBack LocalProvider.takeBack fun _ => rfl
      exact (congrArg (takeBack · _) changed).trans (ih _)
    | _ => exact ih w

variable [SignalValue V] (past : b.AreOver)
include past

theorem onHub_later (l : HubLabel V H R) :
    (w.later b).onHub (l.later b) = (w.onHub l).map (Stepped.map (·.later b) (·.later b)) := by
  have hub : (w.later b).hub = w.hub.later b := rfl
  simp only [onHub, hub, Hub.step_later past, Option.map_map]
  congr 1
  funext r
  exact congrArg (Stepped.mk · _ _) (takeBack_later { w with hub := r.state } r.effects)

theorem invokeCallback_later (payload : R) :
    (w.later b).invokeCallback i payload = (w.invokeCallback i payload).map (Stepped.map (·.later b) (·.later b)) := by
  have callback : ((w.later b).sources[i]?).bind (·.provider.callback?) =
      ((w.sources[i]?).bind (·.provider.callback?)).map (· + b.epochs i) := by
    rw [getElem?_later]
    cases w.sources[i]? with
    | none => rfl
    | some s => exact LocalProvider.callback?_map _ s.provider
  rw [invokeCallback, callback, invokeCallback]
  cases (w.sources[i]?).bind (·.provider.callback?) with
  | none => rfl
  | some epoch => exact onHub_later w past (.invoke i epoch payload)

/-- **What a world does does not depend on what is over**, but for the numbers. -/
theorem step_later (l : WorldLabel V H R) :
    (w.later b).step (l.later b) = (w.step l).map (Stepped.map (·.later b) (·.later b)) := by
  cases l with
  | move m => exact onHub_later w past (.move m)
  | use feed u => exact onHub_later w past (.use feed u)
  | query feed =>
    simp only [WorldLabel.later, step, getElem?_later]
    cases w.sources[feed]? with
    | none => rfl
    | some s =>
      have answer := LocalProvider.query_map (· + b.epochs feed) s.provider
      simp only [Option.map_some, Source.later, answer]
      rw [modifyProvider_later w feed (fun _ => s.provider.query.2) _ fun _ => rfl]
      exact onHub_later _ past (.hear feed (.queried s.provider.query.1))
  | register feed =>
    have feeds : (w.later b).hub.feeds[feed]? = w.hub.feeds[feed]?.map (·.later b feed) := Hub.getElem?_later ..
    simp only [WorldLabel.later, step, getElem?_later, holder?_later, feeds]
    cases w.sources[feed]? with
    | none => rfl
    | some s =>
      obtain ⟨provider, reply⟩ := s
      cases reply with
      | some => rfl
      | none =>
        cases w.hub.feeds[feed]? with
        | none => rfl
        | some f =>
          cases w.holder? feed with
          | none => rfl
          | some s =>
            cases s with
            | registering purpose =>
              have answer := LocalProvider.register_map (· + b.epochs feed) provider f.epoch
              have installed := set_later (b := b) w feed ⟨(provider.register f.epoch).2, some (provider.register f.epoch).1⟩
              have epoch : (f.later b feed).epoch = f.epoch + b.epochs feed := rfl
              simp only [Option.map_some, Source.later, Section.renumber, epoch, answer]
              exact congrArg (fun v => some (Stepped.mk v [] none)) installed
            | _ => rfl
  | registered feed =>
    simp only [WorldLabel.later, step, getElem?_later]
    cases w.sources[feed]? with
    | none => rfl
    | some s =>
      obtain ⟨provider, reply⟩ := s
      cases reply with
      | none => rfl
      | some reply =>
        have told := set_later (b := b) w feed ⟨provider, none⟩
        exact (congrArg (onHub · (.hear feed (.registered reply))) told).trans (onHub_later _ past (.hear feed (.registered reply)))
  | unregister feed thread =>
    simp only [WorldLabel.later, step, getElem?_later, holder?_later]
    cases w.sources[feed]? with
    | none => rfl
    | some s =>
      cases w.holder? feed with
      | none => rfl
      | some held =>
        cases held with
        | unregistering registration place =>
          simp only [Option.map_some, Source.later, Section.renumber, LocalProvider.unregister_map]
          rw [modifyProvider_later w feed (fun _ => (s.provider.unregister registration _).2) _ fun _ => rfl]
          exact onHub_later _ past (.hear feed (.unregistered _))
        | _ => rfl
  | push feed payload =>
    simp only [WorldLabel.later, step]
    rw [modifyProvider_later w feed (·.set payload) (·.set payload) fun _ => rfl]
    exact invokeCallback_later _ feed past payload
  | announce feed payload => exact invokeCallback_later w feed past payload
  | set feed payload =>
    exact congrArg (fun v => some (Stepped.mk v [] none)) (modifyProvider_later w feed (·.set payload) (·.set payload) fun _ => rfl)
  | refuse feed call message =>
    exact congrArg (fun v => some (Stepped.mk v [] none))
      (modifyProvider_later w feed (·.refuse call message) (·.refuse call message) fun p => p.refuse_map _ call message)

end World

/-! ### Steps that are made in later days -/

section Made

variable [SignalValue V]

/-- A move that is made where there were pushes before is a later one. -/
theorem Feed.exists_seasoned {older : List ℕ} {n : ℕ} {f : Feed V H R} {move : FeedMove V} {r : Feed.Result V H R}
    (made : (f.seasoned older n).step (.advance move) = some r) : ∃ move' : FeedMove V, move = move'.seasoned n := by
  have later : ∀ {number p}, (f.seasoned older n).push? number = some p → ∃ k, number = k + n := by
    intro number p known
    have named := number_of_push? known
    obtain ⟨q, -, rfl⟩ := List.mem_map.1 (List.mem_of_find?_eq_some known)
    exact ⟨q.number, named.symm⟩
  -- most moves have no numbers in them
  by_cases plain : move.seasoned n = move
  · exact ⟨move, plain.symm⟩
  cases transition_of_step made with
  | pushRefused known | pushDecoded known =>
    obtain ⟨k, rfl⟩ := later known
    exact ⟨.pushDecoded k _, rfl⟩
  | pushAccepted known | pushStale known =>
    obtain ⟨k, rfl⟩ := later known
    exact ⟨.enter k, rfl⟩
  | leave known =>
    obtain ⟨k, rfl⟩ := later known
    exact ⟨.leave k, rfl⟩
  | _ => exact absurd rfl plain

omit [SignalValue V] in
theorem WorkerPool.exists_of_flush? {J D : Type} {p : WorkerPool J D} {m number : ℕ} {f : Flush}
    (known : (p.seasoned m).flush? number = some f) : ∃ k, number = k + m := by
  have named : f.number = number := by simpa using List.find?_some known
  obtain ⟨g, -, rfl⟩ := List.mem_map.1 (List.mem_of_find?_eq_some known)
  exact ⟨g.number, named.symm⟩

/-- A move that is made in later days is one by later numbers, but for ends of subscriptions from before. -/
theorem HubMove.exists_later {h : Hub V H R} {m : HubMove V H} {r : Hub.Result V H R} (made : (h.later b).act m = some r)
    (new : ∀ signal token, m = .unsubscribe signal token → b.tokens ≤ token.serial) : ∃ m' : HubMove V H, m = m'.later b := by
  by_cases plain : m.later b = m
  · exact ⟨m, plain.symm⟩
  cases Hub.transition_of_act made with
  | @feed _ i _ _ _ _ serves there step =>
    cases serves with
    | subscribe drawn named =>
      obtain ⟨q, -, rfl⟩ := List.mem_map.1 (List.mem_of_find?_eq_some drawn)
      exact ⟨.subscribe q.token, named ▸ rfl⟩
    | @unsubscribe _ signal token =>
      refine ⟨.unsubscribe signal ⟨token.serial - b.tokens⟩, congrArg (fun n => HubMove.unsubscribe signal ⟨n⟩) ?_⟩
      exact (Nat.sub_add_cancel (new signal token rfl)).symm
    | advance =>
      obtain ⟨f, -, rfl⟩ := Option.map_eq_some_iff.1 ((Hub.getElem?_later ..).symm.trans there)
      obtain ⟨move', rfl⟩ := Feed.exists_seasoned step
      exact ⟨.advance i move', rfl⟩
    | _ => exact absurd rfl plain
  | @mark n _ marked =>
    cases known : (h.later b).pool.flush? n with
    | none => simp [WorkerPool.mark, known] at marked
    | some f =>
      obtain ⟨k, rfl⟩ := WorkerPool.exists_of_flush? known
      exact ⟨.mark k, rfl⟩
  | @resolve n _ resolved =>
    cases known : (h.later b).pool.flush? n with
    | none => simp [WorkerPool.resolve, WorkerPool.isResolved, known] at resolved
    | some f =>
      obtain ⟨k, rfl⟩ := WorkerPool.exists_of_flush? known
      exact ⟨.resolve k, rfl⟩
  | _ => exact absurd rfl plain

variable (b) in
/-- Whether a step is the end of a subscription from before. -/
def WorldLabel.looksBack : WorldLabel V H R → Bool
  | .move (.unsubscribe _ token) => token.serial ≤ b.tokens
  | _ => false

/-- A step that is made in later days is one by later numbers, but for ends of subscriptions from before. -/
theorem WorldLabel.exists_later {w : World V H R} {l : WorldLabel V H R} {r : World.Result V H R}
    (made : (w.later b).step l = some r) (new : l.looksBack b = false) : ∃ l' : WorldLabel V H R, l = l'.later b := by
  cases l with
  | move m =>
    obtain ⟨r', made, -⟩ := Option.map_eq_some_iff.1 made
    have new : ∀ signal token, m = .unsubscribe signal token → b.tokens ≤ token.serial := by
      rintro signal token rfl
      exact (Nat.lt_of_not_le (of_decide_eq_false new)).le
    obtain ⟨m', rfl⟩ := HubMove.exists_later made new
    exact ⟨.move m', rfl⟩
  | use i u => exact ⟨.use i u, rfl⟩
  | query i => exact ⟨.query i, rfl⟩
  | register i => exact ⟨.register i, rfl⟩
  | registered i => exact ⟨.registered i, rfl⟩
  | unregister i thread => exact ⟨.unregister i thread, rfl⟩
  | push i payload => exact ⟨.push i payload, rfl⟩
  | announce i payload => exact ⟨.announce i payload, rfl⟩
  | set i payload => exact ⟨.set i payload, rfl⟩
  | refuse i call message => exact ⟨.refuse i call message, rfl⟩

end Made

end LazyHub
