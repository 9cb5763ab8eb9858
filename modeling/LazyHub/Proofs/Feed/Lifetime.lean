import LazyHub.Proofs.Feed.Balance

/-!
# The end of a feed's life

A hub that nobody holds shuts its feeds down one after another and lets go of them. From then on
no client enters, so no pull starts (`Transition.pull?_eq_none`); a feed that is shut down is
inactive as soon as its state lock is free (`Transition.isWoundDown`), and stays as it is once it
is let go of (`Transition.isOver`). In particular a hub's feed never leaves a registration for the
pool to end (`Transition.retiring_eq`).
-/

namespace LazyHub.Feed

variable {V H R : Type}

/-- A feed that is shut down, or being shut down: nobody pulls, and when the state lock is free
there is no registration. -/
def IsWoundDown (f : Feed V H R) : Prop := f.pull? = none ∧ (f.holder = none → f.registration = none)

/-- A feed that its hub has let go of. -/
def IsOver (f : Feed V H R) : Prop := f.handles = 0 ∧ f.holder = none ∧ f.registration = none

variable [SignalValue V] {f : Feed V H R} {l : FeedLabel V H R} {r : Result V H R}

theorem Transition.handles_eq (t : f.Transition l r) (copied : l ≠ .clone) (dropped : l ≠ .drop) :
    r.state.handles = f.handles := by
  cases t with
  | clone => exact absurd rfl copied
  | drop | dropLast => exact absurd rfl dropped
  | _ => rfl

/-- A client enters when the state lock is free. -/
theorem Transition.free_of_enter {request : FeedRequest H} (t : f.Transition (.enter request) r) : f.holder = none := by
  cases t <;> assumption

/-- A registration is left for the pool to end only if nobody has a handle. -/
theorem Transition.retiring_eq (t : f.Transition l r) (kept : f.retiring = false)
    (owned : f.handles ≠ 0 ∨ f.registration = none) : r.state.retiring = false := by
  cases t with
  | leave known =>
    rcases owned with owned | inactive
    · simp [owned]
    · simp [inactive]
  | retire => rfl
  | _ => exact kept

/-- Without a client that enters for it, no pull starts. -/
theorem Transition.pull?_eq_none (t : f.Transition l r) (h : f.pull? = none)
    (entered : ∀ request, l = .enter request → request = .shutdown) : r.state.pull? = none := by
  cases t with
  | activate | deactivate | refresh | attach | subscribe | unknown | detach | detachLast =>
    cases entered _ rfl
  | queried held | decoded held | seed held | settle held =>
    rw [pull?, held] at h
    cases h
  | shutdown | queryFailed | registerFailed | subscribed | activated | unregistered | decodeFailed
  | settleRefresh | clear | cleared | clearedInactive | withdraw | retire | dropLast => rfl
  | _ => exact h

/-- A feed that is shut down stays so as long as no other client enters. -/
theorem Transition.isWoundDown (t : f.Transition l r) (hb : f.Balanced) (h : f.IsWoundDown)
    (entered : ∀ request, l = .enter request → request = .shutdown) (dropped : l ≠ .drop) :
    r.state.IsWoundDown := by
  refine ⟨t.pull?_eq_none h.1 entered, ?_⟩
  cases t with
  | activate | deactivate | refresh | attach | subscribe | unknown | detach | detachLast =>
    cases entered _ rfl
  | drop | dropLast => exact absurd rfl dropped
  | queryFailed held | registerFailed held | subscribed held | activated held | decodeFailed held
  | settleRefresh held =>
    have := h.1
    rw [pull?, held] at this
    cases this
  | unregistered held =>
    simp only [Balanced, held] at hb
    exact fun _ => hb.1.2.2
  | clearedInactive held all inactive => exact fun _ => inactive
  | shutdown | queried | decoded | seed | settle | clear | cleared => exact fun free => by cases free
  | withdraw | retire => exact fun _ => rfl
  | _ => exact h.2

theorem Transition.isWoundDown_of_shutdown (t : f.Transition (.enter .shutdown) r) :
    r.state.IsWoundDown := by
  cases t with
  | content _ _ content => exact content.elim
  | shutdown => exact ⟨rfl, fun free => by cases free⟩

/-- Nothing happens any more to a feed that is let go of, but for the pushes still under way. -/
theorem Transition.isOver (t : f.Transition l r) (h : f.IsOver) : r.state.IsOver := by
  obtain ⟨unowned, free, inactive⟩ := h
  cases t with
  | content _ kept | activate _ kept | deactivate _ kept | refresh _ kept | attach _ kept
  | subscribe _ kept | unknown _ kept | detach _ kept | detachLast _ kept | shutdown _ kept
  | clone kept | drop kept => exact absurd unowned kept
  | queryFailed held | queried held | registerFailed held | subscribed held | activated held
  | unregistered held | decodeFailed held | decoded held | seed held | settleRefresh held | settle held
  | clear held | cleared held | clearedInactive held | withdraw held =>
    rw [free] at held
    cases held
  | retire _ active | dropLast _ _ _ active =>
    rw [inactive] at active
    cases active
  | _ => exact ⟨unowned, free, inactive⟩

end LazyHub.Feed
