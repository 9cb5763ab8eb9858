import LazyHub.Lending
import LazyHub.Proofs.Run
import Mathlib.Data.List.Count
import Mathlib.Data.List.Nodup

/-!
# The provider's contract

What a provider in the process answers, and which callback it invokes, is told from what was done to it before. A
failure that it was armed with is still due if no call of its sort has been made since (`Lending.IsArmed`), a callback
is installed if its registration was accepted and no end of a registration since (`Lending.IsInstalled`), and queries
show what was last set or pushed (`Lending.Shows`). All three say that something happened, and what has not happened
since (`Since`).

`Lending.Transition` lists what a step can do, and `Lending.Recalls` is what a provider recalls of its past: every
step keeps it. The contract, `Lending.honours_contract`, is read off it.
-/

namespace LazyHub

variable {R C : Type}

/-- Something has happened, and since then nothing but what is allowed. -/
def Since {α : Type} (happened allowed : α → Prop) (past : List α) : Prop :=
  ∃ before a after, past = before ++ a :: after ∧ happened a ∧ ∀ b ∈ after, allowed b

theorem since_nil {α : Type} {happened allowed : α → Prop} : ¬ Since happened allowed [] := by
  rintro ⟨before, a, after, split, -⟩
  cases before <;> cases split

/-- It happens now, or it has happened before and what happens now is allowed. -/
theorem since_concat {α : Type} {happened allowed : α → Prop} {past : List α} {a : α} :
    Since happened allowed (past ++ [a]) ↔ happened a ∨ Since happened allowed past ∧ allowed a := by
  constructor
  · rintro ⟨before, b, after, split, happens, all⟩
    rcases List.eq_nil_or_concat after with rfl | ⟨after, c, rfl⟩
    · obtain ⟨-, same⟩ := List.append_inj' split rfl
      exact .inl (List.singleton_inj.1 same ▸ happens)
    · rw [List.concat_eq_append, ← List.cons_append, ← List.append_assoc] at split
      obtain ⟨rfl, same⟩ := List.append_inj' split rfl
      obtain rfl := List.singleton_inj.1 same
      exact .inr ⟨⟨before, b, after, rfl, happens, fun d mem => all d (by simp [mem])⟩, all _ (by simp)⟩
  · rintro (happens | ⟨⟨before, b, after, rfl, happens, all⟩, now⟩)
    · exact ⟨past, a, [], rfl, happens, nofun⟩
    · refine ⟨before, b, after ++ [a], by simp, happens, fun c mem => ?_⟩
      rcases List.mem_append.1 mem with mem | mem
      · exact all c mem
      · exact List.mem_singleton.1 mem ▸ now

/-! ### What is done to a provider, and what it does -/

/-- The sort of a call, if it is one that can be refused. -/
def ProviderUse.call? : ProviderUse R C → Option ProviderCall
  | .query => some .query
  | .register _ => some .register
  | .unregister .. => some .unregister
  | _ => none

/-- The payload that queries show from now on. -/
def ProviderUse.shown? : ProviderUse R C → Option R
  | .set payload | .push payload => some payload
  | _ => none

/-- The lease that ends. -/
def ProviderUse.ended? : ProviderUse R C → Option Nat
  | .giveBack number => some number
  | _ => none

/-- The lease that is made. -/
def ProviderDeed.lease? : ProviderDeed R C → Option (NumberedLease R)
  | .replied (.queried (.ok lease)) | .invoked _ lease => some lease
  | _ => none

/-- The failure that is answered. -/
def ProviderDeed.failure? : ProviderDeed R C → Option ProviderFailure
  | .replied (.queried (.error failure)) | .replied (.registered (.error failure))
  | .replied (.unregistered (.error failure)) => some failure
  | _ => none

/-- The registration that is returned. -/
def ProviderDeed.registration? : ProviderDeed R C → Option Registration
  | .replied (.registered (.ok registration)) => some registration
  | _ => none

namespace LocalProvider

/-- What the next call of a sort is refused with. -/
def refusal (p : LocalProvider R C) : ProviderCall → Option String
  | .query => p.refuseQuery
  | .register => p.refuseRegister
  | .unregister => p.refuseUnregister

/-- How many calls of a sort are counted. -/
def callCount (p : LocalProvider R C) : ProviderCall → Nat
  | .query => p.queries
  | .register => p.registers
  | .unregister => p.unregisters

variable {p : LocalProvider R C}

theorem query_of_armed {message : String} (armed : p.refuseQuery = some message) :
    p.query = (.error ⟨message⟩, { p with queries := p.queries + 1, refuseQuery := none }) := by
  simp only [query, armed]

theorem query_of_unarmed (unarmed : p.refuseQuery = none) : p.query = (.ok p.current, { p with queries := p.queries + 1 }) := by
  simp only [query, unarmed]

theorem register_of_armed {message : String} (armed : p.refuseRegister = some message) (callback : C) :
    p.register callback = (.error ⟨message⟩, { p with registers := p.registers + 1, refuseRegister := none }) := by
  simp only [register, armed]

theorem register_of_taken (unarmed : p.refuseRegister = none) (taken : p.callback.isSome) (callback : C) :
    p.register callback =
      (.error ⟨"a callback is already registered"⟩, { p with registers := p.registers + 1 }) := by
  obtain ⟨installed, there⟩ := Option.isSome_iff_exists.1 taken
  simp only [register, unarmed, there]

theorem register_of_free (unarmed : p.refuseRegister = none) (free : p.callback = none) (callback : C) :
    p.register callback =
      (.ok ⟨p.nextRegistration⟩,
        { p with
          registers := p.registers + 1
          callback := some (⟨p.nextRegistration⟩, callback)
          nextRegistration := p.nextRegistration + 1 }) := by
  simp only [register, unarmed, free]

theorem unregister_of_armed {message : String} (armed : p.refuseUnregister = some message) (registration : Registration)
    (thread : Thread) :
    p.unregister registration thread =
      (.error ⟨message⟩,
        { p with unregisters := p.unregisters + 1, unregisteredOn := some thread, refuseUnregister := none }) := by
  simp only [unregister, armed]

theorem unregister_of_installed (unarmed : p.refuseUnregister = none) {registration : Registration} {callback : C}
    (installed : p.callback = some (registration, callback)) (thread : Thread) :
    p.unregister registration thread =
      (.ok (), { p with unregisters := p.unregisters + 1, unregisteredOn := some thread, callback := none }) := by
  simp only [unregister, unarmed, installed, if_true]

theorem unregister_of_other (unarmed : p.refuseUnregister = none) {registration : Registration}
    (other : ∀ callback, p.callback ≠ some (registration, callback)) (thread : Thread) :
    p.unregister registration thread =
      (.error ⟨s!"unknown registration handle {registration.number}"⟩,
        { p with unregisters := p.unregisters + 1, unregisteredOn := some thread }) := by
  cases there : p.callback with
  | none => simp only [unregister, unarmed, there]
  | some known =>
    obtain ⟨installed, callback⟩ := known
    have differs : installed ≠ registration := fun same => other callback (same ▸ there)
    simp only [unregister, unarmed, there, if_neg differs]

end LocalProvider

namespace Lending

/-- The leases made, in order. -/
def made (deeds : List (ProviderDeed R C)) : List (NumberedLease R) := deeds.filterMap ProviderDeed.lease?

/-- The registrations returned, in order. -/
def returned (deeds : List (ProviderDeed R C)) : List Registration := deeds.filterMap ProviderDeed.registration?

/-- The leases that have ended. -/
def ended (uses : List (ProviderUse R C)) : List Nat := uses.filterMap ProviderUse.ended?

/-- The leases that are made and have not ended. -/
def alive (uses : List (ProviderUse R C)) (deeds : List (ProviderDeed R C)) : List (NumberedLease R) :=
  (made deeds).filter (·.number ∉ ended uses)

/-- A failure is armed: no call of its sort has been made since, and no other failure took its place. -/
def IsArmed (call : ProviderCall) (message : String) : List (ProviderUse R C) → Prop :=
  Since (· = .refuse call message) fun use => use.call? ≠ some call ∧ ∀ other, use ≠ .refuse call other

/-- A callback is installed: its registration was accepted, and no end of a registration since. -/
def IsInstalled (registration : Registration) (callback : C) :
    List (Moment (Lending R C) (ProviderUse R C) (ProviderDeed R C)) → Prop :=
  Since (fun m => m.label = .register callback ∧ m.after.effects = [.replied (.registered (.ok registration))])
    fun m => m.after.effects ≠ [.replied (.unregistered (.ok ()))]

/-- Queries show a payload: it is the last that was set or pushed, or the first of all. -/
def Shows (first payload : R) (uses : List (ProviderUse R C)) : Prop :=
  Since (·.shown? = some payload) (·.shown? = none) uses ∨ payload = first ∧ ∀ use ∈ uses, use.shown? = none

/-! ### What a step can do -/

@[simp] theorem provider_invoke (s : Lending R C) (payload : R) : (s.invoke payload).state.provider = s.provider := by
  unfold invoke
  split <;> rfl

theorem invoke_of_some {s : Lending R C} {registration : Registration} {callback : C}
    (installed : s.provider.callback = some (registration, callback)) (payload : R) :
    s.invoke payload =
      { state := s.lend (s.nextLease payload), effects := [.invoked callback (s.nextLease payload)] } := by
  simp [invoke, LocalProvider.callback?, installed]

theorem invoke_of_none {s : Lending R C} (free : s.provider.callback = none) (payload : R) :
    s.invoke payload = { state := s } := by
  simp [invoke, LocalProvider.callback?, free]

theorem effects_invoke_ne (s : Lending R C) (payload : R) (reply : ProviderReply (NumberedLease R)) :
    (s.invoke payload).effects ≠ [.replied reply] := by
  unfold invoke
  split <;> simp

/-- A lease that ends changes nothing of the provider but the number of the payloads that it got back. -/
@[simp] theorem provider_giveBack (s : Lending R C) (lease : NumberedLease R) :
    (s.giveBack lease).provider = { s.provider with released := s.provider.released + lease.release.length } := by
  rw [giveBack]
  dsimp only
  generalize s.provider = p
  induction lease.release generalizing p with
  | nil => rfl
  | cons payload rest ih =>
    rw [List.foldl_cons, ih, List.length_cons, LocalProvider.takeBack]
    simp only [Nat.add_assoc, Nat.add_comm 1]

/-- **What a step can do.** -/
inductive Transition (s : Lending R C) : ProviderUse R C → Result R C → Prop where
  /-- A query is refused. -/
  | queryRefused {message : String} (armed : s.provider.refuseQuery = some message) :
      Transition s .query
        { state := { s with provider := { s.provider with queries := s.provider.queries + 1, refuseQuery := none } }
          effects := [.replied (.queried (.error ⟨message⟩))] }
  /-- A query is answered. -/
  | queried (unarmed : s.provider.refuseQuery = none) :
      Transition s .query
        { state :=
            ({ s with provider := { s.provider with queries := s.provider.queries + 1 } } : Lending R C).lend
              (s.nextLease s.provider.current)
          effects := [.replied (.queried (.ok (s.nextLease s.provider.current)))] }
  /-- A registration is refused, as the provider is armed. -/
  | registerRefused {callback : C} {message : String} (armed : s.provider.refuseRegister = some message) :
      Transition s (.register callback)
        { state := { s with provider := { s.provider with registers := s.provider.registers + 1, refuseRegister := none } }
          effects := [.replied (.registered (.error ⟨message⟩))] }
  /-- A registration is refused, as a callback is installed. -/
  | occupied {callback : C} (unarmed : s.provider.refuseRegister = none) (taken : s.provider.callback.isSome) :
      Transition s (.register callback)
        { state := { s with provider := { s.provider with registers := s.provider.registers + 1 } }
          effects := [.replied (.registered (.error ⟨"a callback is already registered"⟩))] }
  /-- A callback is installed. -/
  | registered {callback : C} (unarmed : s.provider.refuseRegister = none) (free : s.provider.callback = none) :
      Transition s (.register callback)
        { state :=
            { s with
              provider :=
                { s.provider with
                  registers := s.provider.registers + 1
                  callback := some (⟨s.provider.nextRegistration⟩, callback)
                  nextRegistration := s.provider.nextRegistration + 1 } }
          effects := [.replied (.registered (.ok ⟨s.provider.nextRegistration⟩))] }
  /-- The end of a registration is refused, as the provider is armed. -/
  | unregisterRefused {registration : Registration} {thread : Thread} {message : String}
      (armed : s.provider.refuseUnregister = some message) :
      Transition s (.unregister registration thread)
        { state :=
            { s with
              provider :=
                { s.provider with
                  unregisters := s.provider.unregisters + 1, unregisteredOn := some thread, refuseUnregister := none } }
          effects := [.replied (.unregistered (.error ⟨message⟩))] }
  /-- The end of a registration is refused, as it is not that of the callback installed. -/
  | unknown {registration : Registration} {thread : Thread} (unarmed : s.provider.refuseUnregister = none)
      (other : ∀ callback, s.provider.callback ≠ some (registration, callback)) :
      Transition s (.unregister registration thread)
        { state :=
            { s with
              provider := { s.provider with unregisters := s.provider.unregisters + 1, unregisteredOn := some thread } }
          effects := [.replied (.unregistered (.error ⟨s!"unknown registration handle {registration.number}"⟩))] }
  /-- A callback is removed. -/
  | unregistered {registration : Registration} {thread : Thread} {callback : C}
      (unarmed : s.provider.refuseUnregister = none) (installed : s.provider.callback = some (registration, callback)) :
      Transition s (.unregister registration thread)
        { state :=
            { s with
              provider :=
                { s.provider with
                  unregisters := s.provider.unregisters + 1, unregisteredOn := some thread, callback := none } }
          effects := [.replied (.unregistered (.ok ()))] }
  /-- The payload changes. -/
  | set {payload : R} : Transition s (.set payload) { state := { s with provider := s.provider.set payload } }
  /-- The payload changes, and the callback is invoked. -/
  | push {payload : R} :
      Transition s (.push payload) (({ s with provider := s.provider.set payload } : Lending R C).invoke payload)
  /-- The callback is invoked. -/
  | announce {payload : R} : Transition s (.announce payload) (s.invoke payload)
  /-- The provider is armed. -/
  | refuse {call : ProviderCall} {message : String} :
      Transition s (.refuse call message) { state := { s with provider := s.provider.refuse call message } }
  /-- A lease ends. -/
  | giveBack {lease : NumberedLease R} (mem : lease ∈ s.leases) :
      Transition s (.giveBack lease.number) { state := s.giveBack lease }

/-- **The list is complete.** -/
theorem transition_of_step {s : Lending R C} {use : ProviderUse R C} {r : Result R C} (h : s.step use = some r) :
    s.Transition use r := by
  cases use with
  | query =>
    cases armed : s.provider.refuseQuery with
    | some message =>
      simp only [step, LocalProvider.query_of_armed armed, Option.some.injEq] at h
      exact h ▸ .queryRefused armed
    | none =>
      simp only [step, LocalProvider.query_of_unarmed armed, Option.some.injEq] at h
      exact h ▸ .queried armed
  | register callback =>
    cases armed : s.provider.refuseRegister with
    | some message =>
      simp only [step, LocalProvider.register_of_armed armed, Option.some.injEq] at h
      exact h ▸ .registerRefused armed
    | none =>
      cases free : s.provider.callback.isSome with
      | true =>
        simp only [step, LocalProvider.register_of_taken armed free, Option.some.injEq] at h
        exact h ▸ .occupied armed free
      | false =>
        have free := Option.isNone_iff_eq_none.1 (Option.isSome_eq_false_iff.1 free)
        simp only [step, LocalProvider.register_of_free armed free, Option.some.injEq] at h
        exact h ▸ .registered armed free
  | unregister registration thread =>
    cases armed : s.provider.refuseUnregister with
    | some message =>
      simp only [step, LocalProvider.unregister_of_armed armed, Option.some.injEq] at h
      exact h ▸ .unregisterRefused armed
    | none =>
      by_cases installed : ∃ callback, s.provider.callback = some (registration, callback)
      · obtain ⟨callback, installed⟩ := installed
        simp only [step, LocalProvider.unregister_of_installed armed installed, Option.some.injEq] at h
        exact h ▸ .unregistered armed installed
      · have other := not_exists.1 installed
        simp only [step, LocalProvider.unregister_of_other armed other, Option.some.injEq] at h
        exact h ▸ .unknown armed other
  | set payload =>
    cases h
    exact .set
  | push payload =>
    cases h
    exact .push
  | announce payload =>
    cases h
    exact .announce
  | refuse call message =>
    cases h
    exact .refuse
  | giveBack number =>
    obtain ⟨lease, found, rfl⟩ := Option.map_eq_some_iff.1 h
    obtain rfl : lease.number = number := by simpa using List.find?_some found
    exact .giveBack (List.mem_of_find?_eq_some found)

section Transition

variable {s : Lending R C} {use : ProviderUse R C} {r : Result R C}

theorem Transition.refusal_eq_some_iff (t : s.Transition use r) {call : ProviderCall} {message : String} :
    r.state.provider.refusal call = some message ↔
      use = .refuse call message ∨
        s.provider.refusal call = some message ∧ use.call? ≠ some call ∧ ∀ other, use ≠ .refuse call other := by
  cases t with
  | queryRefused armed | registerRefused armed | unregisterRefused armed =>
    cases call <;> simp [LocalProvider.refusal, ProviderUse.call?]
  | queried unarmed | occupied unarmed | registered unarmed | unknown unarmed | unregistered unarmed =>
    cases call <;> simp [LocalProvider.refusal, ProviderUse.call?, lend, unarmed]
  | push =>
    rw [provider_invoke]
    cases call <;> simp [LocalProvider.refusal, LocalProvider.set, ProviderUse.call?]
  | announce =>
    rw [provider_invoke]
    simp [ProviderUse.call?]
  | set => cases call <;> simp [LocalProvider.refusal, LocalProvider.set, ProviderUse.call?]
  | @refuse kind =>
    cases kind <;> cases call <;> simp [LocalProvider.refusal, LocalProvider.refuse, ProviderUse.call?]
  | giveBack =>
    rw [provider_giveBack]
    cases call <;> simp [LocalProvider.refusal, ProviderUse.call?]

theorem Transition.callback_eq_some_iff (t : s.Transition use r) {registration : Registration} {callback : C} :
    r.state.provider.callback = some (registration, callback) ↔
      (use = .register callback ∧ r.effects = [.replied (.registered (.ok registration))]) ∨
        s.provider.callback = some (registration, callback) ∧ r.effects ≠ [.replied (.unregistered (.ok ()))] := by
  cases t with
  | registered unarmed free =>
    simp only [free, Option.some.injEq, Prod.mk.injEq, ProviderUse.register.injEq, List.cons.injEq, ProviderDeed.replied.injEq,
      ProviderReply.registered.injEq, Except.ok.injEq]
    tauto
  | unregistered => simp
  | push =>
    rw [provider_invoke]
    simp [LocalProvider.set, effects_invoke_ne]
  | announce =>
    rw [provider_invoke]
    simp [effects_invoke_ne]
  | @refuse kind => cases kind <;> simp [LocalProvider.refuse]
  | giveBack => simp
  | set => simp [LocalProvider.set]
  | _ => simp [lend]

theorem Transition.current_eq (t : s.Transition use r) :
    use.shown? = some r.state.provider.current ∨ use.shown? = none ∧ r.state.provider.current = s.provider.current := by
  cases t with
  | set => exact .inl rfl
  | push => exact .inl (by rw [provider_invoke]; rfl)
  | announce => exact .inr ⟨rfl, by rw [provider_invoke]⟩
  | @refuse kind => cases kind <;> exact .inr ⟨rfl, rfl⟩
  | giveBack => exact .inr ⟨rfl, by rw [provider_giveBack]⟩
  | _ => exact .inr ⟨rfl, rfl⟩

theorem Transition.callCount_eq (t : s.Transition use r) (call : ProviderCall) :
    r.state.provider.callCount call = s.provider.callCount call + if use.call? = some call then 1 else 0 := by
  cases t with
  | push =>
    rw [provider_invoke]
    cases call <;> simp [LocalProvider.callCount, LocalProvider.set, ProviderUse.call?]
  | announce =>
    rw [provider_invoke]
    simp [ProviderUse.call?]
  | @refuse kind => cases kind <;> cases call <;> rfl
  | giveBack =>
    rw [provider_giveBack]
    cases call <;> rfl
  | _ => cases call <;> rfl

/-- A registration that is returned has the next number. -/
theorem Transition.nextRegistration_eq (t : s.Transition use r) :
    returned r.effects = [] ∧ r.state.provider.nextRegistration = s.provider.nextRegistration ∨
      returned r.effects = [⟨s.provider.nextRegistration⟩] ∧
        r.state.provider.nextRegistration = s.provider.nextRegistration + 1 := by
  cases t with
  | registered => exact .inr ⟨rfl, rfl⟩
  | push | announce =>
    rw [provider_invoke]
    refine .inl ⟨?_, rfl⟩
    unfold invoke
    split <;> rfl
  | @refuse kind => cases kind <;> exact .inl ⟨rfl, rfl⟩
  | giveBack => exact .inl ⟨rfl, by rw [provider_giveBack]⟩
  | _ => exact .inl ⟨rfl, rfl⟩

/-- **What becomes of the leases in a step.** -/
inductive Lends (s : Lending R C) (use : ProviderUse R C) (r : Result R C) : Prop where
  /-- None is made, and none ends. -/
  | nothing (unmade : made r.effects = []) (unended : use.ended? = none) (leases : r.state.leases = s.leases)
      (count : r.state.leaseCount = s.leaseCount) (released : r.state.provider.released = s.provider.released)
  /-- One is made. -/
  | one {payload : R} (makes : made r.effects = [s.nextLease payload]) (unended : use.ended? = none)
      (leases : r.state.leases = s.leases ++ [s.nextLease payload]) (count : r.state.leaseCount = s.leaseCount + 1)
      (released : r.state.provider.released = s.provider.released)
  /-- One ends. -/
  | ending {lease : NumberedLease R} (mem : lease ∈ s.leases) (unmade : made r.effects = [])
      (ends : use.ended? = some lease.number) (leases : r.state.leases = s.leases.filter (·.number ≠ lease.number))
      (count : r.state.leaseCount = s.leaseCount)
      (released : r.state.provider.released = s.provider.released + lease.release.length)

theorem lends_invoke {s t : Lending R C} {use : ProviderUse R C} (payload : R) (unended : use.ended? = none)
    (leases : t.leases = s.leases) (count : t.leaseCount = s.leaseCount)
    (released : t.provider.released = s.provider.released) : s.Lends use (t.invoke payload) := by
  cases installed : t.provider.callback with
  | none =>
    rw [invoke_of_none installed]
    exact .nothing rfl unended leases count released
  | some known =>
    have same : t.nextLease payload = s.nextLease payload := by rw [nextLease, nextLease, count]
    rw [invoke_of_some installed, same]
    exact .one rfl unended (congrArg (· ++ _) leases) (congrArg (· + 1) count) released

theorem Transition.lends (t : s.Transition use r) : s.Lends use r := by
  cases t with
  | queried => exact .one rfl rfl rfl rfl rfl
  | push => exact lends_invoke _ rfl rfl rfl rfl
  | announce => exact lends_invoke _ rfl rfl rfl rfl
  | @refuse kind => cases kind <;> exact .nothing rfl rfl rfl rfl rfl
  | giveBack mem => exact .ending mem rfl rfl rfl rfl (by rw [provider_giveBack])
  | _ => exact .nothing rfl rfl rfl rfl rfl

end Transition

/-! ### What a provider recalls -/

/-- **The leases**, told from what was done to a provider and what it did. -/
structure Lent (uses : List (ProviderUse R C)) (deeds : List (ProviderDeed R C)) (s : Lending R C) : Prop where
  /-- A lease that was made has a number given away, and is to be given back. -/
  numbered : ∀ lease ∈ made deeds, lease.number < s.leaseCount ∧ lease.returnable = true
  /-- Leases have different numbers. -/
  distinct : ((made deeds).map (·.number)).Nodup
  /-- A lease that has ended was made. -/
  past : ∀ number ∈ ended uses, number < s.leaseCount
  /-- The leases that are alive are those that were made and have not ended. -/
  alive : s.leases = alive uses deeds
  /-- The others have come back. -/
  balance : s.provider.released + s.leases.length = (made deeds).length

theorem lent_ofInitial (first : R) : Lent [] [] (ofInitial first : Lending R C) where
  numbered := nofun
  distinct := .nil
  past := nofun
  alive := rfl
  balance := rfl

section Lent

variable {s : Lending R C} {use : ProviderUse R C} {r : Result R C} {uses : List (ProviderUse R C)}
  {deeds : List (ProviderDeed R C)}

@[simp] theorem made_append (deeds later : List (ProviderDeed R C)) : made (deeds ++ later) = made deeds ++ made later :=
  List.filterMap_append

theorem made_of_unmade (unmade : made r.effects = []) : made (deeds ++ r.effects) = made deeds := by
  rw [made_append, unmade, List.append_nil]

theorem ended_concat (uses : List (ProviderUse R C)) (use : ProviderUse R C) :
    ended (uses ++ [use]) = ended uses ++ use.ended?.toList := by
  rw [ended, List.filterMap_append]
  cases ends : use.ended? <;> simp [ended, ends]

theorem ended_of_unended (unended : use.ended? = none) : ended (uses ++ [use]) = ended uses := by
  rw [ended_concat, unended, Option.toList_none, List.append_nil]

/-- One of several leases with different numbers is taken away. -/
theorem length_filter_ne {leases : List (NumberedLease R)} (distinct : (leases.map (·.number)).Nodup)
    {lease : NumberedLease R} (mem : lease ∈ leases) :
    (leases.filter (·.number ≠ lease.number)).length + 1 = leases.length := by
  have once : leases.countP (·.number = lease.number) = 1 := by
    rw [← List.count_eq_one_of_mem distinct (List.mem_map_of_mem mem), List.count, List.countP_map]
    rfl
  have parts := List.length_eq_countP_add_countP (fun other : NumberedLease R => other.number = lease.number) (l := leases)
  simp only [once, decide_eq_true_eq] at parts
  rw [parts, Nat.add_comm, List.countP_eq_length_filter]

/-- **Every step keeps book of the leases.** -/
theorem Lent.step (h : Lent uses deeds s) (l : s.Lends use r) : Lent (uses ++ [use]) (deeds ++ r.effects) r.state := by
  cases l with
  | nothing unmade unended leases count released =>
    have same : made (deeds ++ r.effects) = made deeds := made_of_unmade unmade
    have ended : ended (uses ++ [use]) = ended uses := ended_of_unended unended
    refine ⟨?_, ?_, ?_, ?_, ?_⟩
    · rw [same, count]
      exact h.numbered
    · rw [same]
      exact h.distinct
    · rw [ended, count]
      exact h.past
    · rw [leases, h.alive, Lending.alive, Lending.alive, same, ended]
    · rw [same, leases, released]
      exact h.balance
  | @one payload makes unended leases count released =>
    have more : made (deeds ++ r.effects) = made deeds ++ [s.nextLease payload] := by rw [made_append, makes]
    have ended : ended (uses ++ [use]) = ended uses := ended_of_unended unended
    have unended : s.leaseCount ∉ Lending.ended uses := fun mem => Nat.lt_irrefl _ (h.past _ mem)
    refine ⟨?_, ?_, ?_, ?_, ?_⟩
    · intro lease mem
      rw [more] at mem
      rw [count]
      rcases List.mem_append.1 mem with mem | mem
      · exact ⟨Nat.lt_succ_of_lt (h.numbered lease mem).1, (h.numbered lease mem).2⟩
      · rw [List.mem_singleton.1 mem]
        exact ⟨Nat.lt_succ_self _, rfl⟩
    · rw [more, List.map_append]
      refine List.Nodup.append h.distinct (List.nodup_singleton _) fun number mem new => ?_
      obtain ⟨lease, among, rfl⟩ := List.mem_map.1 mem
      have eq : lease.number = s.leaseCount := List.mem_singleton.1 new
      exact absurd (h.numbered lease among).1 (eq ▸ Nat.lt_irrefl _)
    · rw [ended, count]
      exact fun number mem => Nat.lt_succ_of_lt (h.past number mem)
    · rw [leases, h.alive, Lending.alive, Lending.alive, more, ended, List.filter_append]
      congr 1
      exact (List.filter_eq_self.2 fun lease mem => by
        rw [List.mem_singleton.1 mem]
        exact decide_eq_true unended).symm
    · rw [more, leases, released, List.length_append, List.length_append, ← h.balance]
      exact (Nat.add_assoc _ _ _).symm
  | @ending lease mem unmade ends leases count released =>
    have same : made (deeds ++ r.effects) = made deeds := made_of_unmade unmade
    have ended : ended (uses ++ [use]) = ended uses ++ [lease.number] := by rw [ended_concat, ends, Option.toList_some]
    have among : lease ∈ made deeds := (List.mem_filter.1 (h.alive ▸ mem)).1
    refine ⟨?_, ?_, ?_, ?_, ?_⟩
    · rw [same, count]
      exact h.numbered
    · rw [same]
      exact h.distinct
    · intro number mem
      rw [ended] at mem
      rw [count]
      rcases List.mem_append.1 mem with mem | mem
      · exact h.past number mem
      · rw [List.mem_singleton.1 mem]
        exact (h.numbered lease among).1
    · rw [leases, h.alive, Lending.alive, Lending.alive, same, ended, List.filter_filter]
      refine List.filter_congr fun other _ => ?_
      simp only [List.mem_append, List.mem_singleton, not_or, Bool.decide_and, ne_eq, Bool.and_comm]
    · have distinct : (s.leases.map (·.number)).Nodup := by
        rw [h.alive]
        exact h.distinct.sublist (List.filter_sublist.map _)
      have owed : lease.release.length = 1 := by rw [Lease.release, if_pos (h.numbered lease among).2]; rfl
      rw [same, leases, released, owed, ← h.balance, ← length_filter_ne distinct mem]
      omega

end Lent

/-- **What a provider recalls of its past.** -/
structure Recalls (first : R) (past : List (Moment (Lending R C) (ProviderUse R C) (ProviderDeed R C)))
    (s : Lending R C) : Prop where
  /-- The payload is what queries show. -/
  shows : Shows first s.provider.current (past.map (·.label))
  /-- The failures that are armed are those still due. -/
  armed : ∀ call message, s.provider.refusal call = some message ↔ IsArmed call message (past.map (·.label))
  /-- The callback is that installed. -/
  installed : ∀ registration callback,
    s.provider.callback = some (registration, callback) ↔ IsInstalled registration callback past
  /-- Each call is counted, whatever became of it. -/
  counted : ∀ call, s.provider.callCount call = (past.map (·.label)).countP (·.call? = some call)
  /-- Registrations are numbered in order. -/
  fresh : ∀ registration ∈ returned (past.flatMap (·.after.effects)), registration.number < s.provider.nextRegistration
  /-- The book of the leases is kept. -/
  lent : Lent (past.map (·.label)) (past.flatMap (·.after.effects)) s

theorem recalls_ofInitial (first : R) : Recalls first [] (ofInitial first : Lending R C) where
  shows := .inr ⟨rfl, nofun⟩
  armed := fun call message => by cases call <;> exact ⟨nofun, fun since => absurd since since_nil⟩
  installed := fun registration callback => ⟨nofun, fun since => absurd since since_nil⟩
  counted := fun call => by cases call <;> rfl
  fresh := nofun
  lent := lent_ofInitial first

/-- **Every step is recalled.** -/
theorem Recalls.step {first : R} {past : List (Moment (Lending R C) (ProviderUse R C) (ProviderDeed R C))} {s : Lending R C}
    {use : ProviderUse R C} {r : Result R C} (h : Recalls first past s) (t : s.Transition use r) :
    Recalls first (past ++ [⟨s, use, r⟩]) r.state where
  shows := by
    rw [List.map_append, List.map_singleton]
    rcases t.current_eq with shown | ⟨unshown, same⟩
    · exact .inl (since_concat.2 (.inl shown))
    · rw [same]
      rcases h.shows with since | ⟨eq, never⟩
      · exact .inl (since_concat.2 (.inr ⟨since, unshown⟩))
      · refine .inr ⟨eq, fun other mem => ?_⟩
        rcases List.mem_append.1 mem with mem | mem
        · exact never other mem
        · exact List.mem_singleton.1 mem ▸ unshown
  armed := fun call message => by
    rw [List.map_append, List.map_singleton, t.refusal_eq_some_iff, h.armed, IsArmed, since_concat]
  installed := fun registration callback => by
    rw [t.callback_eq_some_iff, h.installed, IsInstalled, since_concat]
  counted := fun call => by
    rw [t.callCount_eq, h.counted, List.map_append, List.map_singleton, List.countP_append, List.countP_singleton]
    simp only [decide_eq_true_eq]
  fresh := fun registration mem => by
    rw [List.flatMap_append, List.flatMap_singleton, returned, List.filterMap_append] at mem
    rcases t.nextRegistration_eq with ⟨unreturned, same⟩ | ⟨returns, next⟩
    · rw [same]
      rcases List.mem_append.1 mem with mem | mem
      · exact h.fresh registration mem
      · rw [← returned, unreturned] at mem
        cases mem
    · rw [next]
      rcases List.mem_append.1 mem with mem | mem
      · exact Nat.lt_succ_of_lt (h.fresh registration mem)
      · rw [← returned, returns] at mem
        rw [List.mem_singleton.1 mem]
        exact Nat.lt_succ_self _
  lent := by
    rw [List.map_append, List.map_singleton, List.flatMap_append, List.flatMap_singleton]
    exact h.lent.step t.lends

theorem recalls_of_run {first : R} {uses : List (ProviderUse R C)} {s : Lending R C} {deeds : List (ProviderDeed R C)}
    (ran : run step uses (ofInitial first) = some (s, deeds)) : Recalls first (trail step uses (ofInitial first)) s :=
  run_remembers (P := Recalls first) (fun before made => before.step (transition_of_step made)) ran [] (recalls_ofInitial first)

/-! ### The contract -/

theorem exists_step (s : Lending R C) (use : ProviderUse R C) (lasting : use.ended? = none) : ∃ r, s.step use = some r := by
  cases use with
  | query =>
    unfold step
    dsimp only
    split <;> exact ⟨_, rfl⟩
  | giveBack => cases lasting
  | _ => exact ⟨_, rfl⟩

section Contract

variable {first : R} {past : List (Moment (Lending R C) (ProviderUse R C) (ProviderDeed R C))} {s : Lending R C}
  (h : Recalls first past s)
include h

/-- A failure that is armed is answered. -/
theorem Recalls.refuses {call : ProviderCall} {message : String} (armed : IsArmed call message (past.map (·.label)))
    {use : ProviderUse R C} (calls : use.call? = some call) :
    ∃ r deed, s.step use = some r ∧ r.effects = [deed] ∧ deed.failure? = some ⟨message⟩ := by
  have due := (h.armed call message).2 armed
  obtain ⟨r, made⟩ := s.exists_step use (by cases use <;> first | rfl | cases calls)
  refine ⟨r, ?_⟩
  cases transition_of_step made with
  | queryRefused known | registerRefused known | unregisterRefused known =>
    obtain rfl := Option.some.inj calls
    obtain rfl := Option.some.inj (known.symm.trans due)
    exact ⟨_, made, rfl, rfl⟩
  | queried unarmed | occupied unarmed | registered unarmed | unknown unarmed | unregistered unarmed =>
    obtain rfl := Option.some.inj calls
    cases unarmed.symm.trans due
  | _ => cases calls

/-- A failure that is answered without being armed is not there. -/
theorem Recalls.unarmed {call : ProviderCall} (unarmed : s.provider.refusal call = none) (message : String) :
    ¬ IsArmed call message (past.map (·.label)) := fun armed => by
  cases unarmed.symm.trans ((h.armed call message).2 armed)

theorem Recalls.queries (unarmed : ∀ message, ¬ IsArmed .query message (past.map (·.label))) :
    ∃ r lease, s.step .query = some r ∧ r.effects = [.replied (.queried (.ok lease))] ∧
      Shows first lease.payload (past.map (·.label)) := by
  obtain ⟨r, made⟩ := s.exists_step .query rfl
  cases transition_of_step made with
  | queryRefused armed => exact absurd ((h.armed .query _).1 armed) (unarmed _)
  | queried => exact ⟨_, _, made, rfl, h.shows⟩

theorem Recalls.registers (callback : C) :
    ∃ r answer, s.step (.register callback) = some r ∧ r.effects = [.replied (.registered answer)] ∧
      ((∃ registration, answer = .ok registration) ↔
        (∀ message, ¬ IsArmed .register message (past.map (·.label))) ∧
          ∀ registration installed, ¬ IsInstalled registration installed past) ∧
      ∀ registration, answer = .ok registration → registration ∉ returned (past.flatMap (·.after.effects)) := by
  obtain ⟨r, made⟩ := s.exists_step (.register callback) rfl
  cases transition_of_step made with
  | registerRefused armed =>
    exact ⟨_, _, made, rfl, ⟨nofun, fun ⟨unarmed, _⟩ => absurd ((h.armed .register _).1 armed) (unarmed _)⟩, nofun⟩
  | occupied unarmed taken =>
    obtain ⟨⟨registration, installed⟩, there⟩ := Option.isSome_iff_exists.1 taken
    exact ⟨_, _, made, rfl, ⟨nofun, fun ⟨_, free⟩ => absurd ((h.installed _ _).1 there) (free _ _)⟩, nofun⟩
  | registered unarmed free =>
    refine ⟨_, _, made, rfl, ⟨fun _ => ⟨h.unarmed unarmed, fun registration installed there => ?_⟩, fun _ => ⟨_, rfl⟩⟩, ?_⟩
    · cases free.symm.trans ((h.installed _ _).2 there)
    · rintro registration ⟨⟩ mem
      exact Nat.lt_irrefl _ (h.fresh _ mem)

theorem Recalls.unregisters (registration : Registration) (thread : Thread) :
    ∃ r answer, s.step (.unregister registration thread) = some r ∧ r.effects = [.replied (.unregistered answer)] ∧
      (answer = .ok () ↔
        (∀ message, ¬ IsArmed .unregister message (past.map (·.label))) ∧
          ∃ callback, IsInstalled registration callback past) := by
  obtain ⟨r, made⟩ := s.exists_step (.unregister registration thread) rfl
  cases transition_of_step made with
  | unregisterRefused armed =>
    exact ⟨_, _, made, rfl, nofun, fun ⟨unarmed, _⟩ => absurd ((h.armed .unregister _).1 armed) (unarmed _)⟩
  | unknown unarmed other =>
    exact ⟨_, _, made, rfl, nofun, fun ⟨_, callback, there⟩ => absurd ((h.installed _ _).2 there) (other callback)⟩
  | unregistered unarmed installed =>
    exact ⟨_, _, made, rfl, fun _ => ⟨h.unarmed unarmed, _, (h.installed _ _).1 installed⟩, fun _ => rfl⟩

theorem Recalls.invokes {use : ProviderUse R C} {payload : R} (tells : use = .push payload ∨ use = .announce payload) :
    ∃ r, s.step use = some r ∧ ((∀ registration callback, ¬ IsInstalled registration callback past) → r.effects = []) ∧
      ∀ registration callback, IsInstalled registration callback past → ∃ lease, r.effects = [.invoked callback lease] ∧
        lease.payload = payload ∧ lease ∉ made (past.flatMap (·.after.effects)) := by
  obtain ⟨t, made, same, count⟩ : ∃ t : Lending R C, s.step use = some (t.invoke payload) ∧
      t.provider.callback = s.provider.callback ∧ t.leaseCount = s.leaseCount := by
    rcases tells with rfl | rfl
    · exact ⟨_, rfl, rfl, rfl⟩
    · exact ⟨s, rfl, rfl, rfl⟩
  refine ⟨_, made, fun free => ?_, fun registration callback installed => ?_⟩
  · cases there : t.provider.callback with
    | none => rw [invoke_of_none there]
    | some known => exact absurd ((h.installed _ _).1 (same.symm.trans there)) (free known.1 known.2)
  · rw [invoke_of_some (same.trans ((h.installed _ _).2 installed))]
    refine ⟨_, rfl, rfl, fun mem => ?_⟩
    exact Nat.lt_irrefl _ (count ▸ (h.lent.numbered _ mem).1)

end Contract

section Transition

variable {s : Lending R C} {use : ProviderUse R C} {r : Result R C}

/-- A call that fails leaves the payload and the callback as they were. -/
theorem Transition.unchanged_of_failure (t : s.Transition use r) {deed : ProviderDeed R C} (mem : deed ∈ r.effects)
    {failure : ProviderFailure} (fails : deed.failure? = some failure) :
    r.state.provider.current = s.provider.current ∧ r.state.provider.callback = s.provider.callback := by
  cases t with
  | queried | registered | unregistered =>
    rw [List.mem_singleton.1 mem] at fails
    cases fails
  | set | refuse | giveBack => cases mem
  | push | announce =>
    unfold invoke at mem
    split at mem
    · rw [List.mem_singleton.1 mem] at fails
      cases fails
    · cases mem
  | _ => exact ⟨rfl, rfl⟩

/-- Nothing but a push or an announcement invokes a callback. -/
theorem Transition.tells_of_invoked (t : s.Transition use r) {callback : C} {lease : NumberedLease R}
    (mem : .invoked callback lease ∈ r.effects) : use = .push lease.payload ∨ use = .announce lease.payload := by
  have told : ∀ {t : Lending R C} {payload : R}, .invoked callback lease ∈ (t.invoke payload).effects →
      payload = lease.payload := fun {t payload} mem => by
    unfold invoke at mem
    split at mem
    · cases List.mem_singleton.1 mem
      rfl
    · cases mem
  cases t with
  | push => exact .inl (congrArg _ (told mem))
  | announce => exact .inr (congrArg _ (told mem))
  | set | refuse | giveBack => cases mem
  | _ => cases List.mem_singleton.1 mem

end Transition

theorem exists_giveBack_iff (s : Lending R C) (number : Nat) :
    (∃ r, s.step (.giveBack number) = some r) ↔ number ∈ s.leases.map (·.number) := by
  simp only [step, Option.map_eq_some_iff]
  constructor
  · rintro ⟨r, lease, found, -⟩
    exact List.mem_map.2 ⟨lease, List.mem_of_find?_eq_some found, by simpa using List.find?_some found⟩
  · intro mem
    obtain ⟨lease, among, rfl⟩ := List.mem_map.1 mem
    obtain ⟨other, found⟩ := Option.isSome_iff_exists.1
      (List.find?_isSome.2 ⟨lease, among, decide_eq_true rfl⟩ : (s.leases.find? (·.number = lease.number)).isSome)
    exact ⟨_, other, found, rfl⟩

/-- **A provider honours its contract**, whatever was done to it before, by callbacks too, and whichever leases are alive:

* a failure that is armed is what the next call of its sort is answered;
* a query that is not refused so is answered with the payload that was set or pushed last;
* a callback can be registered exactly if no failure is armed and no callback is installed, and then the registration is
  one that was never returned before;
* a registration can be ended exactly if no failure is armed and its callback is installed;
* a call that fails leaves the payload and the callback as they were;
* the callback that is installed is invoked once by a push and by an announcement, with a new lease of the payload, and
  none is invoked if there is none, nor by anything else;
* a lease can end exactly if it is alive;
* every call is counted, and the leases that have come back and those that are alive are together as many as were made. -/
theorem honours_contract {first : R} {uses : List (ProviderUse R C)} {s : Lending R C} {deeds : List (ProviderDeed R C)}
    (ran : run step uses (ofInitial first) = some (s, deeds)) :
    let past := trail step uses (ofInitial first)
    (∀ call message, IsArmed call message uses → ∀ use, use.call? = some call →
      ∃ r deed, s.step use = some r ∧ r.effects = [deed] ∧ deed.failure? = some ⟨message⟩) ∧
    ((∀ message, ¬ IsArmed .query message uses) →
      ∃ r lease, s.step .query = some r ∧ r.effects = [.replied (.queried (.ok lease))] ∧ Shows first lease.payload uses) ∧
    (∀ callback, ∃ r answer, s.step (.register callback) = some r ∧ r.effects = [.replied (.registered answer)] ∧
      ((∃ registration, answer = .ok registration) ↔
        (∀ message, ¬ IsArmed .register message uses) ∧
          ∀ registration installed, ¬ IsInstalled registration installed past) ∧
      ∀ registration, answer = .ok registration → registration ∉ returned deeds) ∧
    (∀ registration thread, ∃ r answer, s.step (.unregister registration thread) = some r ∧
      r.effects = [.replied (.unregistered answer)] ∧
      (answer = .ok () ↔
        (∀ message, ¬ IsArmed .unregister message uses) ∧ ∃ callback, IsInstalled registration callback past)) ∧
    (∀ use r deed failure, s.step use = some r → deed ∈ r.effects → deed.failure? = some failure →
      r.state.provider.current = s.provider.current ∧ r.state.provider.callback = s.provider.callback) ∧
    (∀ use payload, use = .push payload ∨ use = .announce payload → ∃ r, s.step use = some r ∧
      ((∀ registration callback, ¬ IsInstalled registration callback past) → r.effects = []) ∧
      ∀ registration callback, IsInstalled registration callback past →
        ∃ lease, r.effects = [.invoked callback lease] ∧ lease.payload = payload ∧ lease ∉ made deeds) ∧
    (∀ use r callback lease, s.step use = some r → .invoked callback lease ∈ r.effects →
      use = .push lease.payload ∨ use = .announce lease.payload) ∧
    (∀ number, (∃ r, s.step (.giveBack number) = some r) ↔ number ∈ (alive uses deeds).map (·.number)) ∧
    (∀ call, s.provider.callCount call = uses.countP (·.call? = some call)) ∧
    s.provider.released + (alive uses deeds).length = (made deeds).length := by
  intro past
  have h : Recalls first past s := recalls_of_run ran
  have labels : past.map (·.label) = uses := map_label_trail ran
  have effects : past.flatMap (·.after.effects) = deeds := flatMap_effects_trail ran
  rw [← labels, ← effects, ← h.lent.alive]
  exact ⟨fun _ _ armed _ calls => h.refuses armed calls, h.queries, h.registers, h.unregisters,
    fun _ _ _ _ made mem fails => (transition_of_step made).unchanged_of_failure mem fails, fun _ _ tells => h.invokes tells,
    fun _ _ _ _ made mem => (transition_of_step made).tells_of_invoked mem, s.exists_giveBack_iff, h.counted, h.lent.balance⟩

end Lending

/-- The hall hears of a lamp and lets go of it while it is told, and the porch takes over; the hall tries to let go again, and
to come back. -/
def Lamp.takeover : List (ProviderUse Bool String) :=
  [.register "hall", .push true, .unregister ⟨1⟩ (.client 0), .register "porch", .unregister ⟨1⟩ (.client 0), .giveBack 0,
    .refuse .register "busy", .query, .register "hall"]

/-- The porch is told of the lamp from then on, and only its registration can be ended. Every call is counted, and one of two
leases has come back. -/
theorem Lending.lamp_is_taken_over :
    ∃ s deeds, run step Lamp.takeover (ofInitial false) = some (s, deeds) ∧
      (∃ r lease, s.step (.push false) = some r ∧ r.effects = [.invoked "porch" lease] ∧ lease.payload = false) ∧
      (∀ registration, (∃ r, s.step (.unregister registration .pool) = some r ∧
        r.effects = [.replied (.unregistered (.ok ()))]) ↔ registration = ⟨2⟩) ∧
      s.provider.unregisters = 2 ∧ s.provider.released + 1 = 2 := by
  obtain ⟨s, deeds, ran, installed, unarmed, counts⟩ : ∃ s deeds,
      run step Lamp.takeover (ofInitial false) = some (s, deeds) ∧ s.provider.callback = some (⟨2⟩, "porch") ∧
        s.provider.refuseUnregister = none ∧ (alive Lamp.takeover deeds).length = 1 ∧ (made deeds).length = 2 :=
    ⟨_, _, rfl, rfl, rfl, rfl, rfl⟩
  have recalls := recalls_of_run ran
  obtain ⟨-, -, -, unregisters, -, invokes, -, -, counted, balance⟩ := honours_contract ran
  refine ⟨s, deeds, ran, ?_, fun registration => ?_, counted .unregister, ?_⟩
  · obtain ⟨r, pushed, -, told⟩ := invokes (.push false) false (.inl rfl)
    obtain ⟨lease, tells, payload, -⟩ := told _ _ ((recalls.installed _ _).1 installed)
    exact ⟨r, lease, pushed, tells, payload⟩
  · obtain ⟨r, answer, made, answers, ends⟩ := unregisters registration .pool
    constructor
    · rintro ⟨r', made', ended⟩
      obtain rfl := Option.some.inj (made.symm.trans made')
      rw [answers] at ended
      obtain ⟨-, callback, there⟩ := ends.1 (by simpa using ended)
      cases installed.symm.trans ((recalls.installed _ _).2 there)
      rfl
    · rintro rfl
      rw [ends.2 ⟨?_, "porch", (recalls.installed _ _).1 installed⟩] at answers
      · exact ⟨r, made, answers⟩
      · have unarmed : s.provider.refusal .unregister = none := unarmed
        exact fun message => map_label_trail ran ▸ recalls.unarmed unarmed message
  · rw [← counts.1, balance, counts.2]

end LazyHub
