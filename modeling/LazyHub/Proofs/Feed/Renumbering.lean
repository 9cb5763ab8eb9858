import LazyHub.Proofs.Feed.Balance
import Mathlib.Data.List.Basic
import Mathlib.Order.Hom.Basic

/-!
# Feeds by other numbers

Tokens and epochs are numbers that only serve to tell things apart. `Feed.renumber` gives the tokens and the
epochs of a feed other numbers, in the same order, and a step of the feed does not depend on them
(`Feed.step_renumber`): it is enabled by the one numbering if it is by the other, it has the same answer, and
its state and effects are the same but for the numbers.

`skip n` is the renumbering that leaves out the number `n`.
-/

namespace LazyHub

variable {V H R : Type}

/-- Numbers from `n` on are replaced by the next ones, so that `n` is left out. -/
def skip (n : ℕ) : ℕ ↪o ℕ :=
  OrderEmbedding.ofStrictMono (fun x => if x < n then x else x + 1) fun x y lt => by
    dsimp only
    split <;> split <;> omega

theorem skip_of_lt {n x : ℕ} (lt : x < n) : skip n x = x := if_pos lt

theorem skip_of_le {n x : ℕ} (le : n ≤ x) : skip n x = x + 1 := if_neg (Nat.not_lt.2 le)

theorem skip_ne (n x : ℕ) : skip n x ≠ n := by
  rcases Nat.lt_or_ge x n with lt | le
  · rw [skip_of_lt lt]
    omega
  · rw [skip_of_le le]
    omega

/-- An item of a list can be changed before a function is applied to all of them, or after that. -/
theorem modify_map {α β : Type} (f : α → β) (change : α → α) (change' : β → β)
    (same : ∀ a, change' (f a) = f (change a)) (xs : List α) (i : Nat) :
    (xs.map f).modify i change' = (xs.modify i change).map f := by
  apply List.ext_getElem?
  intro j
  simp only [List.getElem?_modify, List.getElem?_map]
  split <;> cases xs[j]? <;> simp [same]

variable (τ δ : ℕ ↪o ℕ)

/-- The token by its other number. -/
def Token.renumber (t : Token) : Token := ⟨τ t.serial⟩

@[simp] theorem Token.renumber_inj {s t : Token} : s.renumber τ = t.renumber τ ↔ s = t := by
  cases s
  cases t
  simp [renumber]

/-! ### Subscribers -/

namespace Subscribers

/-- Subscribers whose tokens have other numbers. -/
def renumber (s : Subscribers H) : Subscribers H where
  entries := s.entries.map fun e => (e.1.renumber τ, e.2)
  ascending := List.pairwise_map.2 (s.ascending.imp fun lt => τ.lt_iff_lt.2 lt)

theorem place_renumber (token : Token) (handler : H) (entries : List (Token × H)) :
    place (token.renumber τ) handler (entries.map fun e => (e.1.renumber τ, e.2)) =
      (place token handler entries).map fun e => (e.1.renumber τ, e.2) := by
  induction entries with
  | nil => rfl
  | cons e rest ih =>
    have lt : (token.renumber τ).serial < (e.1.renumber τ).serial ↔ token.serial < e.1.serial := τ.lt_iff_lt
    have eq : (token.renumber τ).serial = (e.1.renumber τ).serial ↔ token.serial = e.1.serial := τ.injective.eq_iff
    simp only [List.map_cons, place, lt, eq, ih]
    split
    · rfl
    · split <;> rfl

@[simp] theorem insert_renumber (s : Subscribers H) (token : Token) (handler : H) :
    (s.renumber τ).insert (token.renumber τ) handler = (s.insert token handler).renumber τ := by
  simp only [insert, renumber, place_renumber]

@[simp] theorem erase_renumber (s : Subscribers H) (token : Token) :
    (s.renumber τ).erase (token.renumber τ) = (s.erase token).renumber τ := by
  simp [erase, renumber, List.filter_map, Function.comp_def]

@[simp] theorem contains_renumber (s : Subscribers H) (token : Token) :
    (s.renumber τ).contains (token.renumber τ) = s.contains token := by
  simp [contains, renumber, List.any_map, Function.comp_def]

@[simp] theorem size_renumber (s : Subscribers H) : (s.renumber τ).size = s.size := List.length_map _

@[simp] theorem isEmpty_renumber (s : Subscribers H) : (s.renumber τ).isEmpty = s.isEmpty := List.isEmpty_map

@[simp] theorem empty_renumber : (empty : Subscribers H).renumber τ = empty := rfl

end Subscribers

/-! ### Feeds -/

/-- An outlet whose subscribers' tokens have other numbers. -/
def Outlet.renumber (o : Outlet V H) : Outlet V H := { o with subscribers := o.subscribers.renumber τ }

/-- What a pull is for, where tokens have other numbers. -/
def Purpose.renumber : Purpose H → Purpose H
  | .subscribe signal token handler => .subscribe signal (token.renumber τ) handler
  | purpose => purpose

/-- What the holder of the state lock is doing, where tokens have other numbers. -/
def Section.renumber : Section V H R → Section V H R
  | .querying purpose => .querying (purpose.renumber τ)
  | .decoding purpose payload => .decoding (purpose.renumber τ) payload
  | .seeding purpose values => .seeding (purpose.renumber τ) values
  | .writing purpose => .writing (purpose.renumber τ)
  | .registering purpose => .registering (purpose.renumber τ)
  | s => s

/-- A push whose epoch has another number. -/
def Push.renumber (p : Push V R) : Push V R := { p with epoch := δ p.epoch }

/-- A request whose token has another number. -/
def FeedRequest.renumber : FeedRequest H → FeedRequest H
  | .subscribe signal token handler => .subscribe signal (token.renumber τ) handler
  | .unsubscribe signal token => .unsubscribe signal (token.renumber τ)
  | request => request

/-- A call whose epoch has another number. -/
def FeedCall.renumber : FeedCall → FeedCall
  | .register epoch => .register (δ epoch)
  | call => call

/-- An entry of the journal whose token has another number. -/
def Entry.renumber : Entry → Entry
  | .subscribed token key => .subscribed (token.renumber τ) key
  | .unsubscribed token signal => .unsubscribed (token.renumber τ) signal
  | .unsubscribeUnknownSignal token signal => .unsubscribeUnknownSignal (token.renumber τ) signal
  | .unsubscribeUnknownToken token signal => .unsubscribeUnknownToken (token.renumber τ) signal
  | .subscriberPanicked token signal => .subscriberPanicked (token.renumber τ) signal
  | entry => entry

/-- An effect whose token or epoch has another number. -/
def FeedEffect.renumber : FeedEffect V → FeedEffect V
  | .asked call => .asked (call.renumber δ)
  | .noted entry => .noted (entry.renumber τ)
  | e => e

/-- A step of a feed whose token or epoch has another number. -/
def FeedLabel.renumber : FeedLabel V H R → FeedLabel V H R
  | .enter request => .enter (request.renumber τ)
  | .invoke epoch payload => .invoke (δ epoch) payload
  | l => l

namespace Feed

/-- A feed whose tokens and epochs have other numbers. -/
def renumber (f : Feed V H R) : Feed V H R :=
  { f with
    outlets := f.outlets.map (·.renumber τ)
    epoch := δ f.epoch
    holder := f.holder.map (·.renumber τ)
    pushes := f.pushes.map (·.renumber δ)
    callbacks := f.callbacks.map δ }

/-- What a step leaves behind, where tokens and epochs have other numbers. -/
def Result.renumber (r : Result V H R) : Result V H R := r.map (·.renumber τ δ) (·.renumber τ δ)

section Renumber

variable (f : Feed V H R)

@[simp] theorem renumber_kind : (f.renumber τ δ).kind = f.kind := rfl

@[simp] theorem renumber_handles : (f.renumber τ δ).handles = f.handles := rfl

@[simp] theorem renumber_registration : (f.renumber τ δ).registration = f.registration := rfl

@[simp] theorem renumber_writer : (f.renumber τ δ).writer = f.writer := rfl

@[simp] theorem renumber_retiring : (f.renumber τ δ).retiring = f.retiring := rfl

@[simp] theorem renumber_epoch : (f.renumber τ δ).epoch = δ f.epoch := rfl

@[simp] theorem renumber_holder : (f.renumber τ δ).holder = f.holder.map (·.renumber τ) := rfl

@[simp] theorem renumber_outlets : (f.renumber τ δ).outlets = f.outlets.map (·.renumber τ) := rfl

@[simp] theorem isActive_renumber : (f.renumber τ δ).isActive = f.isActive := rfl

@[simp] theorem owners_renumber : (f.renumber τ δ).owners = f.owners :=
  congrArg (f.handles + ·) (List.length_map _)

@[simp] theorem outlet?_renumber (signal : SignalId) :
    (f.renumber τ δ).outlet? signal = (f.outlet? signal).map (·.renumber τ) := by
  simp only [outlet?, renumber, List.find?_map]
  rfl

theorem modifyFirst_renumber {signal : SignalId} {change change' : Outlet V H → Outlet V H} (os : List (Outlet V H))
    (same : ∀ o : Outlet V H, change' (o.renumber τ) = (change o).renumber τ) :
    modifyFirst signal change' (os.map (·.renumber τ)) = (modifyFirst signal change os).map (·.renumber τ) := by
  induction os with
  | nil => rfl
  | cons o rest ih =>
    have key : (o.renumber τ).key.id = signal ↔ o.key.id = signal := Iff.rfl
    simp only [List.map_cons, modifyFirst, key, ih, same]
    split <;> rfl

@[simp] theorem push?_renumber (number : Nat) :
    (f.renumber τ δ).push? number = (f.push? number).map (·.renumber δ) := by
  simp only [push?, renumber, List.find?_map]
  rfl

@[simp] theorem setPhase_renumber (number : Nat) (phase : PushPhase V R) :
    (f.renumber τ δ).setPhase number phase = (f.setPhase number phase).renumber τ δ := by
  simp only [setPhase, renumber, List.map_map]
  congr 1
  refine List.map_congr_left fun p _ => ?_
  simp only [Function.comp_apply, Push.renumber]
  split <;> rfl

@[simp] theorem attach_renumber (signal : SignalId) (token : Token) (handler : H) :
    (f.renumber τ δ).attach signal (token.renumber τ) handler = (f.attach signal token handler).renumber τ δ := by
  simp only [attach, modifyOutlet, renumber]
  congr 1
  refine modifyFirst_renumber τ f.outlets fun o => ?_
  simp only [Outlet.renumber, Subscribers.insert_renumber]

@[simp] theorem detach_renumber (signal : SignalId) (token : Token) :
    (f.renumber τ δ).detach signal (token.renumber τ) = (f.detach signal token).renumber τ δ := by
  simp only [detach, modifyOutlet, renumber]
  congr 1
  refine modifyFirst_renumber τ f.outlets fun o => ?_
  simp only [Outlet.renumber, Subscribers.erase_renumber]

@[simp] theorem release_renumber (a : Answer) (es : List (FeedEffect V)) :
    (f.renumber τ δ).release a (es.map (·.renumber τ δ)) = Result.renumber τ δ (f.release a es) := rfl

@[simp] theorem startWithdrawal_renumber :
    (f.renumber τ δ).startWithdrawal = Result.renumber τ δ f.startWithdrawal := by
  unfold startWithdrawal
  rw [renumber_registration]
  split <;> rfl

theorem startActivation_renumber (next : δ (f.epoch + 1) = δ f.epoch + 1) (purpose : Purpose H) :
    (f.renumber τ δ).startActivation (purpose.renumber τ) = Result.renumber τ δ (f.startActivation purpose) := by
  simp [startActivation, startPull, renumber, Result.renumber, Stepped.map, next, Section.renumber,
    FeedEffect.renumber, FeedCall.renumber]

variable [SignalValue V]

theorem check_renumber (values : List (Emission V)) : (f.renumber τ δ).check values = f.check values := by
  induction values with
  | nil => rfl
  | cons e rest ih =>
    simp only [check, outlet?_renumber, ih]
    cases f.outlet? e.signal <;> rfl

@[simp] theorem admissible_renumber (outcome : Except DecodeFailure (Emissions V)) :
    (f.renumber τ δ).admissible outcome = f.admissible outcome := by
  cases outcome with
  | error failure => rfl
  | ok out => simp only [admissible, check_renumber]

@[simp] theorem writeGate_renumber (e : Emission V) :
    (f.renumber τ δ).writeGate e = (f.writeGate e).renumber τ δ := by
  simp only [writeGate, modifyOutlet, renumber]
  congr 1
  exact modifyFirst_renumber τ f.outlets fun o => rfl

@[simp] theorem isChange_renumber (e : Emission V) : (f.renumber τ δ).isChange e = f.isChange e := by
  simp only [isChange, outlet?_renumber]
  cases f.outlet? e.signal <;> rfl

omit [SignalValue V] in
@[simp] theorem isWatched_renumber (signal : SignalId) : (f.renumber τ δ).isWatched signal = f.isWatched signal := by
  simp only [isWatched, outlet?_renumber]
  cases f.outlet? signal with
  | none => rfl
  | some o => exact congrArg (!·) (o.subscribers.isEmpty_renumber τ)

end Renumber

/-! ### Steps -/

section Step

variable [SignalValue V] {f : Feed V H R}

omit [SignalValue V] in
theorem enter_renumber (next : δ (f.epoch + 1) = δ f.epoch + 1) (request : FeedRequest H) :
    (f.renumber τ δ).enter (request.renumber τ) = (f.enter request).map (Result.renumber τ δ) := by
  have busy : (f.renumber τ δ).holder.isSome = f.holder.isSome := Option.isSome_map
  unfold enter
  rw [busy, renumber_handles]
  split
  · rfl
  cases request with
  | activate =>
    by_cases active : f.isActive
    · simp only [FeedRequest.renumber, isActive_renumber, active, if_true]
      rfl
    · simp only [FeedRequest.renumber, isActive_renumber, active]
      exact congrArg some (startActivation_renumber τ δ f next .activate)
  | deactivate => exact congrArg some (startWithdrawal_renumber τ δ f)
  | refresh =>
    by_cases active : f.isActive
    · simp only [FeedRequest.renumber, isActive_renumber, active, if_true]
      rfl
    · simp only [FeedRequest.renumber, isActive_renumber, active]
      rfl
  | subscribe signal token handler =>
    simp only [FeedRequest.renumber, outlet?_renumber, Option.isNone_map]
    split
    · rfl
    by_cases active : f.isActive
    · simp only [isActive_renumber, active, if_true, attach_renumber]
      rfl
    · simp only [isActive_renumber, active]
      exact congrArg some (startActivation_renumber τ δ f next (.subscribe signal token handler))
  | unsubscribe signal token =>
    simp only [FeedRequest.renumber, outlet?_renumber]
    cases f.outlet? signal with
    | none => rfl
    | some o =>
      have contains : (o.renumber τ).subscribers.contains (token.renumber τ) = o.subscribers.contains token :=
        o.subscribers.contains_renumber τ token
      simp only [Option.map_some, contains, detach_renumber, startWithdrawal_renumber]
      split
      · rfl
      · by_cases last : (f.detach signal token).subscriptionCount = 0
        · have last' : ((f.detach signal token).renumber τ δ).subscriptionCount = 0 := last
          simp only [last, last', if_true, Option.map_some]
        · have last' : ((f.detach signal token).renumber τ δ).subscriptionCount ≠ 0 := last
          simp only [last, last', if_false, Option.map_some]
          rfl
  | shutdown => rfl

omit [SignalValue V] in
theorem hear_renumber (reply : ProviderReply R) :
    (f.renumber τ δ).hear reply = (f.hear reply).map (Result.renumber τ δ) := by
  cases held : f.holder with
  | none => cases reply <;> simp [hear, held]
  | some s =>
    cases reply with
    | queried answer =>
      cases s <;> cases answer <;> simp only [hear, renumber_holder, held, Option.map_some, Section.renumber] <;> rfl
    | registered answer =>
      cases s with
      | registering purpose =>
        cases answer with
        | error failure =>
          have erased : (f.callbacks.map δ).erase (δ f.epoch) = (f.callbacks.erase f.epoch).map δ :=
            (List.map_erase δ.injective f.callbacks).symm
          simp only [hear, held, Option.map_some, Section.renumber, release, renumber, erased]
          rfl
        | ok registration =>
          cases purpose with
          | subscribe signal token handler =>
            have attached := attach_renumber τ δ { f with registration := some registration } signal token handler
            simp only [hear, renumber_holder, held, Option.map_some, Section.renumber, Purpose.renumber]
            exact congrArg (fun g : Feed V H R => some (g.release .done [.noted (.activated f.kind registration)])) attached
          | refresh | activate =>
            simp only [hear, renumber_holder, held, Option.map_some, Section.renumber]
            rfl
      | _ => simp only [hear, renumber_holder, held, Option.map_some, Section.renumber]; rfl
    | unregistered answer =>
      cases s <;> cases answer <;> simp only [hear, renumber_holder, held, Option.map_some, Section.renumber] <;> rfl

omit [SignalValue V] in
theorem invoke_renumber (epoch : ℕ) (payload : R) :
    (f.renumber τ δ).invoke (δ epoch) payload = (f.invoke epoch payload).map (Result.renumber τ δ) := by
  have given : δ epoch ∈ (f.renumber τ δ).callbacks ↔ epoch ∈ f.callbacks := by simp [renumber]
  simp only [invoke, given, owners_renumber]
  split
  · rfl
  split
  · rfl
  · simp [renumber, Result.renumber, Stepped.map, Push.renumber]

omit [SignalValue V] in
theorem settleWriter_renumber (w : Writer V) :
    (f.renumber τ δ).settleWriter w = (f.settleWriter w).map (Result.renumber τ δ) := by
  obtain ⟨push, rest, news⟩ := w
  cases push with
  | some number =>
    exact congrArg (fun g => (some { state := g } : Option (Result V H R)))
      (setPhase_renumber τ δ { f with writer := none } number .leaving)
  | none =>
    cases held : f.holder with
    | none => simp [settleWriter, held]
    | some s =>
      cases s with
      | writing purpose =>
        cases purpose <;>
          simp only [settleWriter, renumber_holder, held, Option.map_some, Section.renumber, Purpose.renumber] <;>
          simp [release, renumber, Result.renumber, Stepped.map, Section.renumber, Purpose.renumber,
            FeedEffect.renumber, FeedCall.renumber]
      | _ => simp only [settleWriter, renumber_holder, held, Option.map_some, Section.renumber]; rfl

theorem advance_renumber (next : δ (f.epoch + 1) = δ f.epoch + 1) (move : FeedMove V) :
    (f.renumber τ δ).advance move = (f.advance move).map (Result.renumber τ δ) := by
  cases move with
  | decoded outcome =>
    cases held : f.holder with
    | none => simp [advance, held]
    | some s =>
      cases s with
      | decoding purpose payload =>
        simp only [advance, renumber_holder, held, Option.map_some, Section.renumber, admissible_renumber]
        cases f.admissible outcome <;> rfl
      | _ => simp only [advance, renumber_holder, held, Option.map_some, Section.renumber]; rfl
  | seed =>
    cases held : f.holder with
    | none => simp [advance, held]
    | some s =>
      cases s with
      | seeding purpose values =>
        simp only [advance, renumber_holder, held, Option.map_some, Section.renumber, renumber_writer]
        cases f.writer <;> rfl
      | _ => simp only [advance, renumber_holder, held, Option.map_some, Section.renumber]; rfl
  | write =>
    simp only [advance, renumber_writer, writeGate_renumber, isChange_renumber]
    cases f.writer with
    | none => rfl
    | some writer =>
      obtain ⟨push, rest, news⟩ := writer
      cases rest with
      | nil => rfl
      | cons e rest => cases news <;> rfl
  | look =>
    simp only [advance, renumber_writer, isWatched_renumber]
    cases f.writer with
    | none => rfl
    | some writer =>
      obtain ⟨push, rest, news⟩ := writer
      cases news <;> rfl
  | post =>
    simp only [advance, renumber_writer]
    cases f.writer with
    | none => rfl
    | some writer =>
      obtain ⟨push, rest, news⟩ := writer
      cases news <;> rfl
  | settle =>
    simp only [advance, renumber_writer]
    cases f.writer with
    | none => rfl
    | some writer =>
      obtain ⟨push, rest, news⟩ := writer
      cases rest with
      | cons => rfl
      | nil =>
        cases news with
        | none => exact settleWriter_renumber τ δ ⟨push, [], .none⟩
        | _ => rfl
  | clear =>
    cases held : f.holder with
    | none => simp [advance, held]
    | some s =>
      cases s with
      | clearing next dropped =>
        simp only [advance, renumber_holder, held, Option.map_some, Section.renumber, renumber_outlets, List.getElem?_map]
        cases f.outlets[next]? with
        | none =>
          cases active : f.registration <;>
            simp only [Option.map_none, startWithdrawal, renumber_registration, active, Option.isSome_some,
              Option.isSome_none, if_true, Bool.false_eq_true, if_false, release] <;>
            refine congrArg some ?_ <;> simp only [Result.renumber, Stepped.map] <;> congr 1 <;> split <;> rfl
        | some o =>
          have cleared := modify_map (Outlet.renumber τ) (fun o : Outlet V H => { o with subscribers := .empty })
            (fun o => { o with subscribers := .empty }) (fun _ => rfl) f.outlets next
          have size : (o.renumber τ).subscribers.size = o.subscribers.size := o.subscribers.size_renumber τ
          simp only [Option.map_some, cleared, size]
          rfl
      | _ => simp only [advance, renumber_holder, held, Option.map_some, Section.renumber]; rfl
  | withdraw =>
    cases held : f.holder with
    | none => simp [advance, held]
    | some s =>
      cases s with
      | withdrawing =>
        simp only [advance, renumber_holder, held, Option.map_some, Section.renumber, renumber_registration]
        cases f.registration with
        | none => rfl
        | some registration =>
          simp [startUnregister, renumber, Result.renumber, Stepped.map, next, Section.renumber, FeedEffect.renumber,
            FeedCall.renumber]
      | _ => simp only [advance, renumber_holder, held, Option.map_some, Section.renumber]; rfl
  | pushDecoded number outcome =>
    simp only [advance, push?_renumber, admissible_renumber]
    cases f.push? number with
    | none => rfl
    | some p =>
      obtain ⟨number', epoch, phase⟩ := p
      cases phase with
      | decoding payload =>
        simp only [Option.map_some, Push.renumber, setPhase_renumber]
        cases f.admissible outcome <;> rfl
      | _ => rfl
  | enter number =>
    simp only [advance, push?_renumber, renumber_writer]
    cases f.push? number with
    | none => rfl
    | some p =>
      obtain ⟨number', epoch, phase⟩ := p
      cases phase with
      | ready values =>
        cases f.writer with
        | some => rfl
        | none =>
          have same : δ epoch = δ f.epoch ↔ epoch = f.epoch := δ.injective.eq_iff
          simp only [Option.map_some, Push.renumber, renumber_epoch, same, setPhase_renumber]
          split <;> rfl
      | _ => rfl
  | leave number =>
    simp only [advance, push?_renumber]
    cases f.push? number with
    | none => rfl
    | some p =>
      obtain ⟨number', epoch, phase⟩ := p
      cases phase with
      | leaving =>
        have left : (f.renumber τ δ).pushes.filter (·.number ≠ number) =
            (f.pushes.filter (·.number ≠ number)).map (·.renumber δ) := by
          simp only [renumber, List.filter_map]
          rfl
        simp only [Option.map_some, Push.renumber, left]
        simp [renumber, Result.renumber, Stepped.map, owners, Push.renumber]
      | _ => rfl
  | retire =>
    simp only [advance, renumber_retiring, renumber_registration]
    cases f.retiring <;> cases f.registration <;> rfl

/-- **A step of a feed does not depend on the numbers.** -/
theorem step_renumber (next : δ (f.epoch + 1) = δ f.epoch + 1) (l : FeedLabel V H R) :
    (f.renumber τ δ).step (l.renumber τ δ) = (f.step l).map (Result.renumber τ δ) := by
  cases l with
  | enter request => exact enter_renumber τ δ next request
  | hear reply => exact hear_renumber τ δ reply
  | invoke epoch payload => exact invoke_renumber τ δ epoch payload
  | advance move => exact advance_renumber τ δ next move
  | clone =>
    change (f.renumber τ δ).clone = f.clone.map _
    by_cases gone : f.handles = 0
    · have gone' : (f.renumber τ δ).handles = 0 := gone
      rw [clone, clone, if_pos gone', if_pos gone]
      rfl
    · have gone' : (f.renumber τ δ).handles ≠ 0 := gone
      rw [clone, clone, if_neg gone', if_neg gone]
      rfl
  | drop =>
    change (f.renumber τ δ).drop = f.drop.map _
    have busy : (f.renumber τ δ).holder.isSome = f.holder.isSome := Option.isSome_map
    have owners : ({ f.renumber τ δ with handles := f.handles - 1 } : Feed V H R).owners =
        ({ f with handles := f.handles - 1 } : Feed V H R).owners := owners_renumber τ δ { f with handles := f.handles - 1 }
    unfold drop
    rw [busy, renumber_handles]
    split
    · rfl
    dsimp only
    rw [owners]
    cases ({ f with handles := f.handles - 1 } : Feed V H R).owners with
    | zero => cases active : f.registration <;> simp only [renumber_registration, active] <;> rfl
    | succ => rfl

end Step

/-! ### Numbers that stay -/

end Feed

/-- The numbering in use. -/
def asIs : ℕ ↪o ℕ := RelEmbedding.refl _

@[simp] theorem asIs_apply (x : ℕ) : asIs x = x := rfl

variable {τ δ} {τ' δ' : ℕ ↪o ℕ}

theorem Outlet.renumber_congr {o : Outlet V H} (agree : ∀ e ∈ o.subscribers.entries, τ e.1.serial = τ' e.1.serial) :
    o.renumber τ = o.renumber τ' := by
  have entries : (o.subscribers.renumber τ).entries = (o.subscribers.renumber τ').entries :=
    List.map_congr_left fun e mem => by rw [Token.renumber, Token.renumber, agree e mem]
  simp only [Outlet.renumber, Outlet.mk.injEq, true_and]
  cases h : o.subscribers.renumber τ
  cases h' : o.subscribers.renumber τ'
  simpa [h, h'] using entries

theorem Section.renumber_congr {s : Section V H R}
    (agree : ∀ token, s.purpose?.bind (·.token?) = some token → τ token.serial = τ' token.serial) :
    s.renumber τ = s.renumber τ' := by
  have purposes : ∀ {purpose : Purpose H}, s.purpose? = some purpose → purpose.renumber τ = purpose.renumber τ' := by
    intro purpose pulls
    cases purpose with
    | subscribe signal token handler =>
      rw [Purpose.renumber, Purpose.renumber, Token.renumber, Token.renumber, agree token (by rw [pulls]; rfl)]
    | refresh | activate => rfl
  cases s with
  | querying | decoding | seeding | writing | registering => simp only [Section.renumber, purposes rfl]
  | _ => rfl

namespace Feed

variable {f : Feed V H R}

/-- Numberings that agree on the numbers in use do the same to a feed, but for its epoch. -/
theorem renumber_congr (τ' δ' : ℕ ↪o ℕ)
    (tokens : ∀ o ∈ f.outlets, ∀ e ∈ o.subscribers.entries, τ e.1.serial = τ' e.1.serial)
    (awaited : ∀ token, f.awaited? = some token → τ token.serial = τ' token.serial)
    (callbacks : ∀ epoch ∈ f.callbacks, δ epoch = δ' epoch) (pushes : ∀ p ∈ f.pushes, δ p.epoch = δ' p.epoch) :
    f.renumber τ δ = { f.renumber τ' δ' with epoch := δ f.epoch } := by
  have outlets : f.outlets.map (·.renumber τ) = f.outlets.map (·.renumber τ') :=
    List.map_congr_left fun o mem => Outlet.renumber_congr (tokens o mem)
  have holder : f.holder.map (·.renumber τ) = f.holder.map (·.renumber τ') := by
    cases held : f.holder with
    | none => rfl
    | some s =>
      refine congrArg some (Section.renumber_congr fun token awaits => awaited token ?_)
      rw [awaited?, pull?, held]
      exact awaits
  have pushes : f.pushes.map (·.renumber δ) = f.pushes.map (·.renumber δ') :=
    List.map_congr_left fun p mem => by rw [Push.renumber, Push.renumber, pushes p mem]
  simp only [renumber, outlets, holder, pushes, List.map_congr_left callbacks]

@[simp] theorem renumber_asIs (f : Feed V H R) : f.renumber asIs asIs = f := by
  have outlet : ∀ o : Outlet V H, o.renumber asIs = o := fun o => by
    simp [Outlet.renumber, Subscribers.renumber, Token.renumber]
  have holder : ∀ s : Section V H R, s.renumber asIs = s := fun s => by
    have purpose : ∀ purpose : Purpose H, purpose.renumber asIs = purpose := fun purpose => by cases purpose <;> rfl
    cases s <;> simp only [Section.renumber, purpose]
  have push : ∀ p : Push V R, p.renumber asIs = p := fun p => rfl
  have callbacks : f.callbacks.map asIs = f.callbacks := List.map_id _
  simp [renumber, outlet, holder, push, callbacks]

end Feed

end LazyHub
