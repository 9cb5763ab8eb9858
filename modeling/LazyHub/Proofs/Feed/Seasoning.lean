import LazyHub.Proofs.Feed.Renumbering

/-!
# Feeds that have been in use

A feed numbers its pushes, and it keeps the epochs of the callbacks that it gave to its provider. A feed that had
pushes before, and gave callbacks that are not invoked any more, is *seasoned* (`Feed.seasoned`); apart from the
numbers of pushes it makes the steps of one that is not (`Feed.step_seasoned`).
-/

namespace LazyHub

variable {V H R : Type} (older : List ℕ) (n : ℕ)

/-- A push that comes after some others. -/
def Push.seasoned (p : Push V R) : Push V R := { p with number := p.number + n }

/-- The holder of the update lock, which is a later push if it is one. -/
def Writer.seasoned (w : Writer V) : Writer V := { w with push := w.push.map (· + n) }

/-- A move of a later push. -/
def FeedMove.seasoned : FeedMove V → FeedMove V
  | .pushDecoded number outcome => .pushDecoded (number + n) outcome
  | .enter number => .enter (number + n)
  | .leave number => .leave (number + n)
  | move => move

/-- A step of a feed that had pushes before. -/
def FeedLabel.seasoned : FeedLabel V H R → FeedLabel V H R
  | .advance move => .advance (move.seasoned n)
  | l => l

namespace Feed

/-- A feed that had so many pushes before, and gave the callbacks of older epochs. -/
def seasoned (f : Feed V H R) : Feed V H R :=
  { f with
    writer := f.writer.map (·.seasoned n)
    pushes := f.pushes.map (·.seasoned n)
    pushCount := f.pushCount + n
    callbacks := older ++ f.callbacks }

/-- What a step leaves behind of a feed that had pushes before. -/
def Result.seasoned (r : Result V H R) : Result V H R := { r with state := r.state.seasoned older n }

section Seasoned

variable (f : Feed V H R)

@[simp] theorem owners_seasoned : (f.seasoned older n).owners = f.owners := congrArg (f.handles + ·) (List.length_map _)

@[simp] theorem push?_seasoned (number : ℕ) :
    (f.seasoned older n).push? (number + n) = (f.push? number).map (·.seasoned n) := by
  simp only [push?, seasoned, List.find?_map]
  congr 2
  funext p
  simp [Push.seasoned]

@[simp] theorem setPhase_seasoned (number : ℕ) (phase : PushPhase V R) :
    (f.seasoned older n).setPhase (number + n) phase = (f.setPhase number phase).seasoned older n := by
  simp only [setPhase, seasoned, List.map_map]
  congr 1
  refine List.map_congr_left fun p _ => ?_
  simp only [Function.comp_apply, Push.seasoned, Nat.add_right_cancel_iff]
  split <;> rfl

theorem check_seasoned [SignalValue V] (values : List (Emission V)) : (f.seasoned older n).check values = f.check values := by
  induction values with
  | nil => rfl
  | cons e rest ih =>
    have same : (f.seasoned older n).outlet? e.signal = f.outlet? e.signal := rfl
    simp only [check, same, ih]

@[simp] theorem admissible_seasoned [SignalValue V] (outcome : Except DecodeFailure (Emissions V)) :
    (f.seasoned older n).admissible outcome = f.admissible outcome := by
  cases outcome with
  | error failure => rfl
  | ok out => simp only [admissible, check_seasoned]

theorem startWithdrawal_seasoned : (f.seasoned older n).startWithdrawal = Result.seasoned older n f.startWithdrawal := by
  have active : (f.seasoned older n).registration = f.registration := rfl
  unfold startWithdrawal
  rw [active]
  split <;> rfl

theorem enter_seasoned (request : FeedRequest H) :
    (f.seasoned older n).enter request = (f.enter request).map (Result.seasoned older n) := by
  have holder : (f.seasoned older n).holder = f.holder := rfl
  have handles : (f.seasoned older n).handles = f.handles := rfl
  have active : (f.seasoned older n).isActive = f.isActive := rfl
  have outlet : ∀ signal, (f.seasoned older n).outlet? signal = f.outlet? signal := fun _ => rfl
  unfold enter
  rw [holder, handles]
  split
  · rfl
  cases request with
  | activate | refresh =>
    dsimp only
    rw [active]
    split <;> rfl
  | deactivate => exact congrArg some (startWithdrawal_seasoned older n f)
  | subscribe signal token handler =>
    dsimp only
    rw [outlet, active]
    split
    · rfl
    split <;> rfl
  | unsubscribe signal token =>
    dsimp only
    rw [outlet]
    cases f.outlet? signal with
    | none => rfl
    | some o =>
      have count : ((f.seasoned older n).detach signal token).subscriptionCount = (f.detach signal token).subscriptionCount := rfl
      dsimp only
      rw [count]
      split
      · rfl
      split
      · exact congrArg some (startWithdrawal_seasoned older n (f.detach signal token))
      · rfl
  | shutdown => rfl

theorem hear_seasoned (apart : f.epoch ∉ older) (reply : ProviderReply R) :
    (f.seasoned older n).hear reply = (f.hear reply).map (Result.seasoned older n) := by
  have holder : (f.seasoned older n).holder = f.holder := rfl
  cases reply with
  | queried answer =>
    simp only [hear, holder]
    cases f.holder with
    | none => rfl
    | some s => cases s <;> cases answer <;> rfl
  | registered answer =>
    simp only [hear, holder]
    cases f.holder with
    | none => rfl
    | some s =>
      cases s with
      | registering purpose =>
        cases answer with
        | error failure =>
          have erased : (f.seasoned older n).callbacks.erase (f.seasoned older n).epoch = older ++ f.callbacks.erase f.epoch :=
            List.erase_append_right _ apart
          simp only [erased]
          rfl
        | ok registration => cases purpose <;> rfl
      | _ => rfl
  | unregistered answer =>
    simp only [hear, holder]
    cases f.holder with
    | none => rfl
    | some s => cases s <;> cases answer <;> rfl

theorem invoke_seasoned {epoch : ℕ} (apart : epoch ∉ older) (payload : R) :
    (f.seasoned older n).invoke epoch payload = (f.invoke epoch payload).map (Result.seasoned older n) := by
  have given : epoch ∈ (f.seasoned older n).callbacks ↔ epoch ∈ f.callbacks := by simp [seasoned, apart]
  simp only [invoke, given, owners_seasoned]
  split
  · rfl
  split
  · rfl
  · simp [seasoned, Result.seasoned, Push.seasoned, Nat.add_right_comm]

theorem settleWriter_seasoned (w : Writer V) :
    (f.seasoned older n).settleWriter (w.seasoned n) = (f.settleWriter w).map (Result.seasoned older n) := by
  obtain ⟨push, rest, news⟩ := w
  cases push with
  | some number =>
    exact congrArg (fun g => (some { state := g } : Option (Result V H R)))
      (setPhase_seasoned older n { f with writer := none } number .leaving)
  | none =>
    have holder : (f.seasoned older n).holder = f.holder := rfl
    simp only [Writer.seasoned, Option.map_none, settleWriter, holder]
    cases f.holder with
    | none => rfl
    | some s =>
      cases s with
      | writing purpose => cases purpose <;> simp [release, seasoned, Result.seasoned]
      | _ => rfl

theorem advance_seasoned [SignalValue V] (move : FeedMove V) :
    (f.seasoned older n).advance (move.seasoned n) = (f.advance move).map (Result.seasoned older n) := by
  have holder : (f.seasoned older n).holder = f.holder := rfl
  have writer : (f.seasoned older n).writer = f.writer.map (·.seasoned n) := rfl
  have registration : (f.seasoned older n).registration = f.registration := rfl
  cases move with
  | decoded outcome =>
    simp only [FeedMove.seasoned, advance, holder, admissible_seasoned]
    cases f.holder with
    | none => rfl
    | some s =>
      cases s with
      | decoding purpose payload => cases f.admissible outcome <;> rfl
      | _ => rfl
  | seed =>
    simp only [FeedMove.seasoned, advance, holder, writer]
    cases f.holder with
    | none => rfl
    | some s =>
      cases s with
      | seeding purpose values => cases f.writer <;> rfl
      | _ => rfl
  | write =>
    simp only [FeedMove.seasoned, advance, writer]
    cases f.writer with
    | none => rfl
    | some w =>
      obtain ⟨push, rest, news⟩ := w
      cases rest with
      | nil => rfl
      | cons e rest => cases push <;> cases news <;> rfl
  | look | post =>
    simp only [FeedMove.seasoned, advance, writer]
    cases f.writer with
    | none => rfl
    | some w =>
      obtain ⟨push, rest, news⟩ := w
      cases news <;> rfl
  | settle =>
    simp only [FeedMove.seasoned, advance, writer]
    cases f.writer with
    | none => rfl
    | some w =>
      obtain ⟨push, rest, news⟩ := w
      cases rest with
      | cons => rfl
      | nil =>
        cases news with
        | none => exact settleWriter_seasoned older n f ⟨push, [], .none⟩
        | _ => rfl
  | clear =>
    have outlets : (f.seasoned older n).outlets = f.outlets := rfl
    simp only [FeedMove.seasoned, advance, holder, outlets]
    cases f.holder with
    | none => rfl
    | some s =>
      cases s with
      | clearing next dropped =>
        dsimp only
        cases f.outlets[next]? with
        | some o => rfl
        | none =>
          simp only [registration]
          cases f.registration <;> rfl
      | _ => rfl
  | withdraw =>
    simp only [FeedMove.seasoned, advance, holder, registration]
    cases f.holder with
    | none => rfl
    | some s => cases s <;> cases f.registration <;> rfl
  | pushDecoded number outcome =>
    simp only [FeedMove.seasoned, advance, push?_seasoned, admissible_seasoned, setPhase_seasoned]
    cases f.push? number with
    | none => rfl
    | some p =>
      obtain ⟨number', epoch, phase⟩ := p
      cases phase with
      | decoding payload => cases f.admissible outcome <;> rfl
      | _ => rfl
  | enter number =>
    have epoch : (f.seasoned older n).epoch = f.epoch := rfl
    simp only [FeedMove.seasoned, advance, push?_seasoned, writer, setPhase_seasoned, epoch]
    cases f.push? number with
    | none => rfl
    | some p =>
      obtain ⟨number', epoch', phase⟩ := p
      cases phase with
      | ready values =>
        cases f.writer with
        | some => rfl
        | none =>
          simp only [Option.map_some, Push.seasoned, Option.map_none]
          split <;> rfl
      | _ => rfl
  | leave number =>
    simp only [FeedMove.seasoned, advance, push?_seasoned]
    cases f.push? number with
    | none => rfl
    | some p =>
      obtain ⟨number', epoch, phase⟩ := p
      cases phase with
      | leaving =>
        have left : (f.seasoned older n).pushes.filter (·.number ≠ number + n) =
            (f.pushes.filter (·.number ≠ number)).map (·.seasoned n) := by
          simp [seasoned, List.filter_map, Function.comp_def, Push.seasoned]
        simp only [Option.map_some, Push.seasoned, left]
        simp [seasoned, Result.seasoned, owners, Push.seasoned]
      | _ => rfl
  | retire =>
    have retiring : (f.seasoned older n).retiring = f.retiring := rfl
    simp only [FeedMove.seasoned, advance, retiring, registration]
    cases f.retiring <;> cases f.registration <;> rfl

/-- **What a feed does does not depend on what it has been through**, as far as that does not show. -/
theorem step_seasoned [SignalValue V] (apart : f.epoch ∉ older) {l : FeedLabel V H R}
    (fresh : ∀ epoch payload, l = .invoke epoch payload → epoch ∉ older) :
    (f.seasoned older n).step (l.seasoned n) = (f.step l).map (Result.seasoned older n) := by
  cases l with
  | enter request => exact enter_seasoned older n f request
  | hear reply => exact hear_seasoned older n f apart reply
  | invoke epoch payload => exact invoke_seasoned older n f (fresh epoch payload rfl) payload
  | advance move => exact advance_seasoned older n f move
  | clone =>
    have handles : (f.seasoned older n).handles = f.handles := rfl
    change (f.seasoned older n).clone = f.clone.map _
    unfold clone
    rw [handles]
    split <;> rfl
  | drop =>
    have handles : (f.seasoned older n).handles = f.handles := rfl
    have busy : (f.seasoned older n).holder.isSome = f.holder.isSome := rfl
    have registration : (f.seasoned older n).registration = f.registration := rfl
    have owners : ({ f.seasoned older n with handles := f.handles - 1 } : Feed V H R).owners =
        ({ f with handles := f.handles - 1 } : Feed V H R).owners := owners_seasoned older n { f with handles := f.handles - 1 }
    change (f.seasoned older n).drop = f.drop.map _
    unfold drop
    rw [handles, busy]
    split
    · rfl
    dsimp only
    rw [owners, registration]
    cases ({ f with handles := f.handles - 1 } : Feed V H R).owners with
    | zero => cases f.registration <;> rfl
    | succ => rfl

end Seasoned

end Feed

end LazyHub
