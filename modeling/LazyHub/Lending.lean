import LazyHub.Feed.Step
import LazyHub.Provider.Lease

/-!
# A provider and what it has lent

Each payload that an in-process provider hands out, to who queries it or to the callback, is on
loan. A `Lending` is a provider together with the leases that are alive. It moves by the calls
that are made to the provider and by the ending of leases, whoever makes or ends them and
whenever: a callback that is invoked may call the provider itself, and its calls are steps like
any others, since the call that invoked it has nothing more to do by then.
-/

namespace LazyHub

variable {R C : Type}

/-- A lease that a provider has made, by its number. -/
structure NumberedLease (R : Type) extends Lease R where
  /-- The lease's number. -/
  number : Nat
deriving DecidableEq

/-- A provider and the leases of its payloads. -/
structure Lending (R C : Type) where
  /-- The provider. -/
  provider : LocalProvider R C
  /-- The leases that are alive, oldest first. -/
  leases : List (NumberedLease R) := []
  /-- How many leases were made. -/
  leaseCount : Nat := 0

/-- What is done to a provider. -/
inductive ProviderUse (R C : Type) where
  /-- The payload is queried. -/
  | query
  /-- A callback is to be installed. -/
  | register (callback : C)
  /-- The callback of a registration is to be removed. -/
  | unregister (registration : Registration) (thread : Thread)
  /-- The payload changes without anyone being told. -/
  | set (payload : R)
  /-- The payload changes, and the callback is invoked. -/
  | push (payload : R)
  /-- The callback is invoked with a payload that queries do not show. -/
  | announce (payload : R)
  /-- The provider is armed to refuse its next call of one sort. -/
  | refuse (call : ProviderCall) (message : String)
  /-- A lease ends. -/
  | giveBack (number : Nat)

/-- What a provider does in a step. -/
inductive ProviderDeed (R C : Type) where
  /-- It answers a call; the answer to a query is on loan. -/
  | replied (reply : ProviderReply (NumberedLease R))
  /-- It invokes a callback with a payload on loan. -/
  | invoked (callback : C) (lease : NumberedLease R)

namespace Lending

/-- The result of a step. -/
abbrev Result (R C : Type) := Stepped (Lending R C) (ProviderDeed R C)

/-- A provider with its first payload, of which nothing is lent. -/
def ofInitial (payload : R) : Lending R C := { provider := .ofInitial payload }

/-- The next lease of a payload. -/
def nextLease (s : Lending R C) (payload : R) : NumberedLease R :=
  { payload, returnable := true, number := s.leaseCount }

/-- Make a lease. -/
def lend (s : Lending R C) (lease : NumberedLease R) : Lending R C :=
  { s with leases := s.leases ++ [lease], leaseCount := s.leaseCount + 1 }

/-- Hand a payload to the callback, if there is one. -/
def invoke (s : Lending R C) (payload : R) : Result R C :=
  match s.provider.callback? with
  | some callback =>
    { state := s.lend (s.nextLease payload), effects := [.invoked callback (s.nextLease payload)] }
  | none => { state := s }

/-- End a lease: the provider gets back what is owed. -/
def giveBack (s : Lending R C) (lease : NumberedLease R) : Lending R C :=
  { s with
    provider := lease.release.foldl (fun p _ => p.takeBack) s.provider
    leases := s.leases.filter (·.number ≠ lease.number) }

/-- One step of a provider and its leases. A lease can end only while it is alive. -/
def step (s : Lending R C) : ProviderUse R C → Option (Result R C)
  | .query =>
    let (answer, provider) := s.provider.query
    let t : Lending R C := { s with provider }
    match answer with
    | .ok payload => some { state := t.lend (t.nextLease payload), effects := [.replied (.queried (.ok (t.nextLease payload)))] }
    | .error failure => some { state := t, effects := [.replied (.queried (.error failure))] }
  | .register callback =>
    let (answer, provider) := s.provider.register callback
    some { state := { s with provider }, effects := [.replied (.registered answer)] }
  | .unregister registration thread =>
    let (answer, provider) := s.provider.unregister registration thread
    some { state := { s with provider }, effects := [.replied (.unregistered answer)] }
  | .set payload => some { state := { s with provider := s.provider.set payload } }
  | .push payload => some (({ s with provider := s.provider.set payload } : Lending R C).invoke payload)
  | .announce payload => some (s.invoke payload)
  | .refuse call message => some { state := { s with provider := s.provider.refuse call message } }
  | .giveBack number => (s.leases.find? (·.number = number)).map fun lease => { state := s.giveBack lease }

end Lending

end LazyHub
