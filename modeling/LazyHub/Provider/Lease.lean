import LazyHub.Text.Diagnostic

/-!
# Leases

A provider lends a payload for the duration of one decode. A `Lease` holds the payload and says
whether it has to be given back; `Lease.release` gives back what is owed, which is the payload
once for a lease that has to be returned and nothing for one that is owned.
-/

namespace LazyHub

open Text

variable {R : Type}

/-- A payload on loan. -/
structure Lease (R : Type) where
  /-- The payload lent. -/
  payload : R
  /-- Whether the payload has to be given back to the provider. -/
  returnable : Bool
deriving DecidableEq

namespace Lease

/-- The payloads that the provider gets back when the lease ends. -/
def release (l : Lease R) : List R := if l.returnable then [l.payload] else []

/-- The form used in diagnostics, given the form of the payload. -/
def inspect (payloadForm : R → String) (l : Lease R) : String :=
  Diagnostic.record "Lease"
    [("value", Diagnostic.tuple "Some" [payloadForm l.payload]), ("release", Diagnostic.flag l.returnable)]

end Lease

end LazyHub
