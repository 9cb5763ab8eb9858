import LazyHub.Power.Battery
import LazyHub.Power.Scheme
import LazyHub.Text.Document

/-!
# Power values as documents

The written form of the power values. An enumeration is written as its member's label, and is
also read from a record whose only field has that label and holds nothing. Flags are written as
their text. A battery record is written as a record of four fields; it is read from a record
that has each of them once, whatever else it has, or from a list of the four in order.
-/

namespace LazyHub.Power

open Text

/-- Read a member of an enumeration, given how labels are read. -/
def readLabelled? {α : Type} (ofLabel? : String → Option α) : Document → Option α
  | .text label => ofLabel? label
  | .record [(label, .null)] => ofLabel? label
  | _ => none

/-- Read a word of 32 bits. -/
def readWord? : Document → Option UInt32
  | .integer n => if 0 ≤ n ∧ n.toNat < UInt32.size then some (UInt32.ofNat n.toNat) else none
  | _ => none

/-- Write a word of 32 bits. -/
def writeWord (n : UInt32) : Document := .integer n.toNat

/-- Read a set of flags. -/
def Flags.ofDocument? : Document → Option Flags
  | .text s => Flags.read? s
  | _ => none

/-- Write a set of flags. -/
def Flags.toDocument (a : Flags) : Document := .text a.display

namespace BatteryRecord

/-- A record made of the readings of its four fields, if all of them succeed. -/
def ofFields? (active : Option UInt32) (state : Option Flags) (full remaining : Option UInt32) :
    Option BatteryRecord :=
  match active, state, full, remaining with
  | some active, some state, some full, some remaining => some { active, state, full, remaining }
  | _, _, _, _ => none

/-- Read a battery record. -/
def ofDocument? : Document → Option BatteryRecord
  | .record fields =>
    ofFields? ((Document.field? "active_battery_count" fields).bind readWord?)
      ((Document.field? "power_state" fields).bind Flags.ofDocument?)
      ((Document.field? "full_charged_capacity" fields).bind readWord?)
      ((Document.field? "remaining_capacity" fields).bind readWord?)
  | .list [active, state, full, remaining] =>
    ofFields? (readWord? active) (Flags.ofDocument? state) (readWord? full) (readWord? remaining)
  | _ => none

/-- Write a battery record. -/
def toDocument (r : BatteryRecord) : Document :=
  .record
    [("active_battery_count", writeWord r.active), ("power_state", r.state.toDocument),
      ("full_charged_capacity", writeWord r.full), ("remaining_capacity", writeWord r.remaining)]

end BatteryRecord

end LazyHub.Power
