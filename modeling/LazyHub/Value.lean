import LazyHub.Identity
import LazyHub.Power.Scheme
import LazyHub.Power.Status

/-!
# Values of many types

`Value` gathers the types of values that signals carry here: machine words, texts, floating-point
numbers, pairs, and the power statuses. Two values are the same if they are equal, except that a
floating-point number compares as its arithmetic says: not-a-number differs from itself, and the
two zeros are the same.
-/

namespace LazyHub

open Text Power

/-- A double-precision number, held as the shortest decimal text that reads back as it. The text
is canonical, so two numbers other than zero are equal exactly if their texts are. -/
structure Real64 where
  /-- The shortest decimal text. -/
  text : String
deriving DecidableEq

namespace Real64

/-- Whether a number is one of the two zeros. -/
def isZero (r : Real64) : Bool := r.text = "0.0" || r.text = "-0.0"

/-- Whether it is no number at all. -/
def isNaN (r : Real64) : Bool := r.text = "NaN"

/-- Equality of floating-point arithmetic. -/
def same (a b : Real64) : Bool := !a.isNaN && (a = b || (a.isZero && b.isZero))

end Real64

/-- A value of one of the types that signals carry here. -/
inductive Value where
  /-- A word of 32 bits. -/
  | word (n : UInt32)
  /-- A word of 64 bits. -/
  | long (n : UInt64)
  /-- A signed word of 64 bits. -/
  | integer (n : Int64)
  /-- A truth value. -/
  | truth (b : Bool)
  /-- A text. -/
  | text (s : String)
  /-- A floating-point number. -/
  | real (r : Real64)
  /-- A percentage that may be unknown. -/
  | percent (p : Option UInt8)
  /-- Two words of 32 bits. -/
  | pair (a b : UInt32)
  /-- The value that says nothing. -/
  | unit
  /-- A time span of whole seconds. -/
  | duration (seconds : UInt64)
  /-- An energy saver's state. -/
  | energySaver (s : EnergySaver)
  /-- What the batteries are doing. -/
  | battery (s : BatteryStatus)
  /-- How external power is doing. -/
  | supply (s : PowerSupply)
  /-- Where the power comes from. -/
  | source (s : PowerSource)
  /-- The display's state. -/
  | display (s : Display)
  /-- Whether the user is there. -/
  | presence (s : UserPresence)
  /-- Whether the system is in away mode. -/
  | awayMode (s : AwayMode)
  /-- A power scheme. -/
  | scheme (s : Scheme)
deriving DecidableEq

/-- The types of values that signals carry here. -/
inductive ValueType where
  /-- Words of 32 bits. -/
  | word
  /-- Words of 64 bits. -/
  | long
  /-- Signed words of 64 bits. -/
  | integer
  /-- Truth values. -/
  | truth
  /-- Texts. -/
  | text
  /-- Floating-point numbers. -/
  | real
  /-- Percentages that may be unknown. -/
  | percent
  /-- Pairs of words of 32 bits. -/
  | pair
  /-- The type of the value that says nothing. -/
  | unit
  /-- Time spans of whole seconds. -/
  | duration
  /-- States of an energy saver. -/
  | energySaver
  /-- States of the batteries. -/
  | battery
  /-- States of external power. -/
  | supply
  /-- Sources of power. -/
  | source
  /-- States of the display. -/
  | display
  /-- Presence of the user. -/
  | presence
  /-- States of away mode. -/
  | awayMode
  /-- Power schemes. -/
  | scheme
deriving DecidableEq, Inhabited

/-- The name shown for a type. -/
def ValueType.name : ValueType → TypeName
  | word => ⟨"u32"⟩
  | long => ⟨"u64"⟩
  | integer => ⟨"i64"⟩
  | truth => ⟨"bool"⟩
  | text => ⟨"alloc::string::String"⟩
  | real => ⟨"f64"⟩
  | percent => ⟨"core::option::Option<u8>"⟩
  | pair => ⟨"(u32, u32)"⟩
  | unit => ⟨"()"⟩
  | duration => ⟨"core::time::Duration"⟩
  | energySaver => ⟨"powerhub::types::EnergySaverStatus"⟩
  | battery => ⟨"powerhub::types::BatteryStatus"⟩
  | supply => ⟨"powerhub::types::PowerSupplyStatus"⟩
  | source => ⟨"powerhub::types::PowerSourceStatus"⟩
  | display => ⟨"powerhub::types::DisplayStatus"⟩
  | presence => ⟨"powerhub::types::UserPresenceStatus"⟩
  | awayMode => ⟨"powerhub::types::SystemAwayModeStatus"⟩
  | scheme => ⟨"powerhub::types::PowerSchemePersonality"⟩

namespace Value

/-- The type a value belongs to. -/
def type : Value → ValueType
  | word _ => .word
  | long _ => .long
  | integer _ => .integer
  | truth _ => .truth
  | text _ => .text
  | real _ => .real
  | percent _ => .percent
  | pair .. => .pair
  | unit => .unit
  | duration _ => .duration
  | energySaver _ => .energySaver
  | battery _ => .battery
  | supply _ => .supply
  | source _ => .source
  | display _ => .display
  | presence _ => .presence
  | awayMode _ => .awayMode
  | scheme _ => .scheme

/-- Whether a new value (second) leaves the old one (first) standing. -/
def same : Value → Value → Bool
  | real a, real b => a.same b
  | a, b => a = b

instance : SignalValue Value where
  typeOf v := v.type.name
  same := same

/-- The form used in diagnostics. -/
def inspect : Value → String
  | word n => toString n.toNat
  | long n => toString n.toNat
  | integer n => toString n.toInt
  | truth b => Diagnostic.flag b
  | text s => Quoted.quote s
  | real r => r.text
  | percent none => "None"
  | percent (some p) => Diagnostic.tuple "Some" [toString p.toNat]
  | pair a b => Diagnostic.tuple "" [toString a.toNat, toString b.toNat]
  | unit => "()"
  | duration seconds => if seconds = 0 then "0ns" else toString seconds.toNat ++ "s"
  | energySaver s => Coded.label s
  | battery s => Coded.label s
  | supply s => Coded.label s
  | source s => Coded.label s
  | display s => Coded.label s
  | presence s => Coded.label s
  | awayMode s => Coded.label s
  | scheme s => s.label

end Value

end LazyHub
