import LazyHub.Failure
import LazyHub.Text.Hex

/-!
# Power schemes

Providers report the active power scheme by a GUID, a number of 128 bits that is written in five
groups of hexadecimal digits. Three schemes are known, each by a GUID of its own; any other GUID
is not recognized.
-/

namespace LazyHub.Power

open Text

/-- A globally unique identifier. -/
structure Guid where
  /-- Its 128 bits. -/
  bits : BitVec 128
deriving DecidableEq, Inhabited

namespace Guid

/-- The identifier whose number is written in hexadecimal digits, 32 at most. -/
def ofHex? (s : String) : Option Guid :=
  match Hex.read? s.toList with
  | some n => if n < Nat.pow 2 128 then some ⟨BitVec.ofNat 128 n⟩ else none
  | none => none

/-- Thirty-two digits in groups of 8, 4, 4, 4 and 12. -/
def display (g : Guid) : String :=
  let digits := Hex.writePadded 32 g.bits.toNat
  let group (start size : Nat) := String.ofList ((digits.drop start).take size)
  "-".intercalate [group 0 8, group 8 4, group 12 4, group 16 4, group 20 12]

end Guid

/-- The power schemes that are known. -/
inductive Scheme where
  /-- The scheme for speed. -/
  | highPerformance
  /-- The scheme for endurance. -/
  | powerSaver
  /-- The scheme between the two. -/
  | balanced
deriving DecidableEq, Inhabited

namespace Scheme

/-- The schemes in order. -/
def members : List Scheme := [.highPerformance, .powerSaver, .balanced]

/-- The GUID by which a scheme is reported. -/
def guid : Scheme → Guid
  | highPerformance => ⟨0x8c5e7fdae8bf4a969a85a6e23a8c635c⟩
  | powerSaver => ⟨0xa184130835414fabbc81f71556f20b4a⟩
  | balanced => ⟨0x381b4222f69441f09685ff5bb260df2e⟩

/-- What a scheme is called. -/
def label : Scheme → String
  | highPerformance => "HighPerformance"
  | powerSaver => "PowerSaver"
  | balanced => "Balanced"

/-- The scheme reported by a GUID. -/
def ofGuid (g : Guid) : Except DecodeFailure Scheme :=
  match members.find? (guid · = g) with
  | some s => .ok s
  | none => .error (.unrecognized "power scheme" g.display)

/-- The scheme with a label. -/
def ofLabel? (s : String) : Option Scheme := members.find? (label · = s)

end Scheme

end LazyHub.Power
