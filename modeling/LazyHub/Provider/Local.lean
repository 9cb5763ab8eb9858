import LazyHub.Failure

/-!
# An in-process provider

`LocalProvider` is a provider whose payload is set by hand. It holds at most one callback,
counts the calls it receives and the leases that come back, and can be armed to refuse the next
call of each sort. Each call is a function from the provider to its answer and the provider
after it; a push answers with the callback to be invoked, since a callback runs after the call
and may call the provider itself.
-/

namespace LazyHub

variable {R C : Type}

/-- Where a call is made from. -/
inductive Thread where
  /-- A client's own thread, by number. -/
  | client (number : Nat)
  /-- The runtime's pool for blocking work. -/
  | pool
deriving DecidableEq, Inhabited

/-- The calls that a provider can be armed to refuse. -/
inductive ProviderCall where
  /-- The query of the current payload. -/
  | query
  /-- The registration of a callback. -/
  | register
  /-- The end of a registration. -/
  | unregister
deriving DecidableEq, Inhabited

/-- An in-process provider of payloads `R` to callbacks `C`. -/
structure LocalProvider (R C : Type) where
  /-- The payload that a query answers with. -/
  current : R
  /-- The callback installed, and the registration it was installed under. -/
  callback : Option (Registration × C) := none
  /-- What the next query is refused with. -/
  refuseQuery : Option String := none
  /-- What the next registration is refused with. -/
  refuseRegister : Option String := none
  /-- What the next end of a registration is refused with. -/
  refuseUnregister : Option String := none
  /-- How many queries were made. -/
  queries : Nat := 0
  /-- How many registrations were asked for. -/
  registers : Nat := 0
  /-- How many ends of registrations were asked for. -/
  unregisters : Nat := 0
  /-- How many leases have come back. -/
  released : Nat := 0
  /-- The number of the next registration. -/
  nextRegistration : Nat := 1
  /-- Where the last end of a registration was asked for. -/
  unregisteredOn : Option Thread := none

namespace LocalProvider

/-- A provider with its first payload. -/
def ofInitial (payload : R) : LocalProvider R C := { current := payload }

/-- Change the payload that queries answer with, without telling anyone. -/
def set (p : LocalProvider R C) (payload : R) : LocalProvider R C := { p with current := payload }

/-- Arm the provider to refuse the next call of one sort. -/
def refuse (p : LocalProvider R C) (call : ProviderCall) (message : String) : LocalProvider R C :=
  match call with
  | .query => { p with refuseQuery := some message }
  | .register => { p with refuseRegister := some message }
  | .unregister => { p with refuseUnregister := some message }

/-- Ask for the current payload. A refusal that was armed is used up. -/
def query (p : LocalProvider R C) : Except ProviderFailure R × LocalProvider R C :=
  let p := { p with queries := p.queries + 1 }
  match p.refuseQuery with
  | some message => (.error ⟨message⟩, { p with refuseQuery := none })
  | none => (.ok p.current, p)

/-- Ask for a callback to be installed. Only one can be installed at a time, and registrations
are numbered in order. -/
def register (p : LocalProvider R C) (callback : C) :
    Except ProviderFailure Registration × LocalProvider R C :=
  let p := { p with registers := p.registers + 1 }
  match p.refuseRegister with
  | some message => (.error ⟨message⟩, { p with refuseRegister := none })
  | none =>
    match p.callback with
    | some _ => (.error ⟨"a callback is already registered"⟩, p)
    | none =>
      let registration : Registration := ⟨p.nextRegistration⟩
      (.ok registration,
        { p with callback := some (registration, callback), nextRegistration := p.nextRegistration + 1 })

/-- Ask for the callback of a registration to be removed. A refusal leaves it in place. -/
def unregister (p : LocalProvider R C) (registration : Registration) (thread : Thread) :
    Except ProviderFailure Unit × LocalProvider R C :=
  let p := { p with unregisters := p.unregisters + 1, unregisteredOn := some thread }
  match p.refuseUnregister with
  | some message => (.error ⟨message⟩, { p with refuseUnregister := none })
  | none =>
    match p.callback with
    | some (installed, _) =>
      if installed = registration then (.ok (), { p with callback := none })
      else (.error ⟨s!"unknown registration handle {registration.number}"⟩, p)
    | none => (.error ⟨s!"unknown registration handle {registration.number}"⟩, p)

/-- The callback that a push invokes. -/
def callback? (p : LocalProvider R C) : Option C := p.callback.map (·.2)

/-- Whether a callback is installed. -/
def isRegistered (p : LocalProvider R C) : Bool := p.callback.isSome

/-- Take back the payload of a lease. -/
def takeBack (p : LocalProvider R C) : LocalProvider R C := { p with released := p.released + 1 }

/-- The counters that a test of the provider's use looks at. -/
structure Counters where
  /-- Queries made. -/
  queries : Nat
  /-- Registrations asked for. -/
  registers : Nat
  /-- Ends of registrations asked for. -/
  unregisters : Nat
  /-- Leases that have come back. -/
  released : Nat
  /-- Whether a callback is installed. -/
  registered : Bool
deriving DecidableEq

/-- The provider's counters. -/
def counters (p : LocalProvider R C) : Counters :=
  ⟨p.queries, p.registers, p.unregisters, p.released, p.isRegistered⟩

end LocalProvider

end LazyHub
