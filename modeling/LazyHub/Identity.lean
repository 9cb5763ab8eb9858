import LazyHub.Text.Diagnostic

/-!
# Identities

The small names by which the parts of a hub refer to one another: signals and the keys that
type them, provider kinds, subscription tokens and provider-side registrations. Each has a
display form, used in messages, and a diagnostic form.

The values that signals carry belong to the hub's clients. All the hub needs of them is the
class `SignalValue`: the type a value has, and when a new value is the same as an old one.
-/

namespace LazyHub

open Text

/-- Stable identity of one signal within a hub. -/
structure SignalId where
  /-- The number the signal was declared with. -/
  index : Nat
deriving DecidableEq, Inhabited

namespace SignalId

/-- The form used in messages. -/
def display (s : SignalId) : String := s!"#{s.index}"

/-- The form used in diagnostics. -/
def inspect (s : SignalId) : String := Diagnostic.tuple "SignalId" [toString s.index]

end SignalId

/-- A type of signal values, known by the name that messages show for it. -/
structure TypeName where
  /-- The name shown. -/
  text : String
deriving DecidableEq, Inhabited

/-- What a hub needs to know of the values its signals carry. Sameness decides whether a
notification is owed; it need not be reflexive, since a type may hold values that differ from
themselves. -/
class SignalValue (V : Type) where
  /-- The type a value belongs to. -/
  typeOf : V → TypeName
  /-- Whether a new value (second) leaves the old one (first) standing. -/
  same : V → V → Bool

/-- Names one signal and the type of value it carries. -/
structure Key where
  /-- The signal named. -/
  id : SignalId
  /-- A name for people. -/
  name : String
  /-- The type of the signal's values. -/
  type : TypeName
deriving DecidableEq, Inhabited

namespace Key

/-- The form used in messages: the name, then the identity. -/
def display (k : Key) : String := k.name ++ k.id.display

/-- The form used in diagnostics. -/
def inspect (k : Key) : String :=
  Diagnostic.record "SignalKey"
    [("id", toString k.id.index), ("name", Quoted.quote k.name), ("type", Quoted.quote k.type.text)]

end Key

/-- Names one source of notifications, which may feed one or several signals. -/
structure Kind where
  /-- The source's name. -/
  name : String
deriving DecidableEq, Inhabited

namespace Kind

/-- The form used in messages. -/
def display (k : Kind) : String := k.name

/-- The form used in diagnostics. -/
def inspect (k : Kind) : String := Diagnostic.tuple "ProviderKind" [Quoted.quote k.name]

end Kind

/-- Identifies one subscription among all subscriptions of a hub. -/
structure Token where
  /-- The subscription's serial number. -/
  serial : Nat
deriving DecidableEq, Inhabited

namespace Token

/-- The form used in messages. -/
def display (t : Token) : String := s!"sub:{t.serial}"

/-- The form used in diagnostics. -/
def inspect (t : Token) : String := Diagnostic.tuple "SubscriptionToken" [toString t.serial]

end Token

/-- Identifies one live callback registration on the provider's side. -/
structure Registration where
  /-- The number the provider gave it. -/
  number : Nat
deriving DecidableEq, Inhabited

namespace Registration

/-- The form used in diagnostics. -/
def inspect (r : Registration) : String := Diagnostic.tuple "RegistrationHandle" [toString r.number]

end Registration

end LazyHub
