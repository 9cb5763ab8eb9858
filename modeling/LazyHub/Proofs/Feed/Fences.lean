import LazyHub.Proofs.Feed.Ledger

/-!
# What keeps the past apart

A callback is invoked if the provider has accepted its registration. As long as a provider keeps to that, a
registration that it refuses leaves nothing behind: while no registration stands, the callbacks that may still
be invoked and the pushes under way are of earlier epochs (`Feed.Fenced`). So the epoch of an inactive feed has
nothing to be compared with, and could be another one.
-/

namespace LazyHub.Feed

variable {V H R : Type}

/-- **The past is fenced off**, where `heard` are the epochs of the callbacks that were invoked. -/
structure Fenced (heard : Nat → Prop) (f : Feed V H R) : Prop where
  /-- Pushes come through callbacks that were invoked. -/
  heard : ∀ p ∈ f.pushes, heard p.epoch
  /-- The callback that is being registered is the only one of its epoch. -/
  registering : ∀ purpose, f.holder = some (.registering purpose) →
    ∃ older, f.callbacks = older ++ [f.epoch] ∧ ∀ epoch ∈ older, epoch < f.epoch
  /-- While no registration stands, everything else is of an earlier epoch. -/
  past : f.standing = none → (∀ epoch ∈ f.callbacks, epoch < f.epoch) ∧ ∀ p ∈ f.pushes, p.epoch < f.epoch

theorem fenced_ofPlan (heard : Nat → Prop) (plan : FeedPlan V) : Fenced heard (ofPlan plan : Feed V H R) where
  heard := nofun
  registering := nofun
  past := fun _ => ⟨nofun, nofun⟩

theorem Fenced.mono {heard heard' : Nat → Prop} {f : Feed V H R} (h : f.Fenced heard)
    (more : ∀ epoch, heard epoch → heard' epoch) : f.Fenced heard' where
  heard := fun p mem => more _ (h.heard p mem)
  registering := h.registering
  past := h.past

variable [SignalValue V] {heard : Nat → Prop} {f : Feed V H R} {l : FeedLabel V H R} {r : Result V H R}

/-- If no registration stands after a step, none did before, or it has just been refused or ended. -/
theorem Transition.standing_of_none (t : f.Transition l r) (ofHub : f.OfHub l) (rests : r.state.standing = none) :
    f.standing = none ∨ (∃ failure, l = .hear (.registered (.error failure))) ∨ f.epoch < r.state.epoch := by
  cases t with
  | registerFailed => exact .inr (.inl ⟨_, rfl⟩)
  | withdraw => exact .inr (.inr (Nat.lt_succ_self _))
  | retire => exact ofHub.elim
  | dropLast _ _ _ active =>
    rw [show f.registration = none from ofHub] at active
    cases active
  | activate free _ inactive | refresh free _ inactive | subscribe free _ _ inactive =>
    exact .inl (by simp [standing, free, inactive])
  | deactivate free | shutdown free | detachLast free =>
    exact .inl (by simpa [standing, free, Section.registers, detach, modifyOutlet] using rests)
  | queryFailed held | queried held | unregistered held | decodeFailed held | decoded held | seed held
  | settleRefresh held | clear held | cleared held | clearedInactive held =>
    exact .inl (by simpa [standing, held, Section.registers] using rests)
  | subscribed held | activated held | settle held => simp [standing, Section.registers] at rests
  | _ => exact .inl rests

theorem Transition.registering (t : f.Transition l r) (h : f.Fenced heard) (o : f.Orderly) (purpose : Purpose H)
    (held' : r.state.holder = some (.registering purpose)) :
    ∃ older, r.state.callbacks = older ++ [r.state.epoch] ∧ ∀ epoch ∈ older, epoch < r.state.epoch := by
  cases t with
  | settle held =>
    have inactive := o.inactive (by rw [pull?, held]; rfl)
    exact ⟨f.callbacks, rfl, (h.past (by simp [standing, held, inactive, Section.registers])).1⟩
  | activate | deactivate | refresh | subscribe | detachLast | shutdown | queryFailed | queried | registerFailed
  | subscribed | activated | unregistered | decodeFailed | decoded | seed | settleRefresh | clear | cleared
  | clearedInactive | withdraw | retire | dropLast => cases held'
  | _ => exact h.registering purpose held'

/-- **Every step keeps the past fenced off**, if the provider has not invoked a callback whose registration it
refuses. -/
theorem Fenced.step (h : f.Fenced heard) (o : f.Orderly) {past : List (Moment (Feed V H R) (FeedLabel V H R) (FeedEffect V))}
    (b : Books past f) (t : f.Transition l r) (ofHub : f.OfHub l)
    (faith : ∀ failure, l = .hear (.registered (.error failure)) → ¬ heard f.epoch) :
    Fenced (fun epoch => heard epoch ∨ ∃ payload, l = .invoke epoch payload) r.state where
  heard := by
    intro p mem
    rcases t.epoch_of_push mem with ⟨q, hq, eq⟩ | ⟨-, invoked⟩
    · exact .inl (eq ▸ h.heard q hq)
    · exact .inr invoked
  registering := t.registering h o
  past := by
    intro rests
    have le := t.epoch_le
    have kept : ∀ epoch ∈ r.state.callbacks, epoch ∈ f.callbacks := by
      have said := t.says o
      generalize exchanges l r.effects = xs at said
      cases said with
      | nothing _ _ callbacks | unregister _ callbacks => exact fun _ mem => callbacks ▸ mem
      | refuse _ callbacks => exact callbacks
      | register standing => cases rests.symm.trans standing
    rcases t.standing_of_none ofHub rests with none | ⟨failure, rfl⟩ | lt
    · obtain ⟨callbacks, pushes⟩ := h.past none
      refine ⟨fun epoch mem => Nat.lt_of_lt_of_le (callbacks epoch (kept epoch mem)) le, fun p mem => ?_⟩
      rcases t.epoch_of_push mem with ⟨q, hq, eq⟩ | ⟨given, -⟩
      · exact eq ▸ Nat.lt_of_lt_of_le (pushes q hq) le
      · exact Nat.lt_of_lt_of_le (callbacks _ given) le
    · -- the only callback of the epoch is withdrawn, and it has not been invoked
      cases t with
      | registerFailed held =>
        obtain ⟨older, callbacks, early⟩ := h.registering _ held
        have new : f.epoch ∉ older := fun mem => Nat.lt_irrefl _ (early _ mem)
        have left : f.callbacks.erase f.epoch = older := by
          rw [callbacks, List.erase_append_right _ new, List.erase_cons_head, List.append_nil]
        refine ⟨fun epoch mem => early epoch (left ▸ mem), fun p mem => ?_⟩
        refine Nat.lt_of_le_of_ne (b.given _ (b.pushes p mem)).1 fun eq => faith failure rfl ?_
        exact eq ▸ h.heard p mem
    · refine ⟨fun epoch mem => Nat.lt_of_le_of_lt (b.given _ (b.callbacks _ (kept epoch mem))).1 lt, fun p mem => ?_⟩
      rcases t.epoch_of_push mem with ⟨q, hq, eq⟩ | ⟨given, -⟩
      · exact eq ▸ Nat.lt_of_le_of_lt (b.given _ (b.pushes q hq)).1 lt
      · exact Nat.lt_of_le_of_lt (b.given _ (b.callbacks _ given)).1 lt

end LazyHub.Feed
