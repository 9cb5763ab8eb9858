import LazyHub.Text.Blank
import LazyHub.Text.Diagnostic
import LazyHub.Text.Hex

/-!
# Power state flags

The state of the batteries as a set of flags in a word. Four flags have names; the other bits are
kept as they come. As text a set is written as its names, in the order of their declaration, with
` | ` between them, and then what is left of the word as one hexadecimal numeral behind `0x`. Text
is read part by part: names and numerals may come in any order and may repeat what others say.
-/

namespace LazyHub.Power

open Text

/-- A set of power state flags. -/
structure Flags where
  /-- The word that holds the set, one bit for each flag. -/
  bits : UInt32
deriving DecidableEq, Inhabited

namespace Flags

/-- External power is connected. -/
def onLine : Flags := ⟨1⟩

/-- The batteries are drained. -/
def discharging : Flags := ⟨2⟩

/-- The batteries are charged. -/
def charging : Flags := ⟨4⟩

/-- The charge is critically low. -/
def critical : Flags := ⟨8⟩

/-- The flags that have names, in the order of their declaration. -/
def named : List (String × Flags) :=
  [("POWER_ON_LINE", onLine), ("DISCHARGING", discharging), ("CHARGING", charging), ("CRITICAL", critical)]

/-- No flag. -/
def empty : Flags := ⟨0⟩

/-- The flags of either set. -/
def union (a b : Flags) : Flags := ⟨a.bits ||| b.bits⟩

/-- The flags of both sets. -/
def inter (a b : Flags) : Flags := ⟨a.bits &&& b.bits⟩

/-- The flags of exactly one of two sets. -/
def symmDiff (a b : Flags) : Flags := ⟨a.bits ^^^ b.bits⟩

/-- The flags of the first set that the second does not have. -/
def diff (a b : Flags) : Flags := ⟨a.bits &&& ~~~b.bits⟩

/-- All flags that have names. -/
def all : Flags := named.foldl (fun s f => s.union f.2) empty

/-- The named flags that a set does not have. -/
def compl (a : Flags) : Flags := all.diff a

/-- The named flags of a set. -/
def known (a : Flags) : Flags := a.inter all

/-- Whether a set has every flag of another. -/
def contains (a b : Flags) : Bool := a.inter b = b

/-- Whether two sets have a flag in common. -/
def intersects (a b : Flags) : Bool := a.inter b ≠ empty

/-- Whether a set has no flag. -/
def isEmpty (a : Flags) : Bool := a = empty

/-- Whether a set has every named flag. -/
def isAll (a : Flags) : Bool := a.contains all

/-- The set of a word, if every bit of the word has a name. -/
def ofBits? (bits : UInt32) : Option Flags := if all.contains ⟨bits⟩ then some ⟨bits⟩ else none

/-- The names of a set's flags, in the order of their declaration. -/
def names (a : Flags) : List String := (named.filter fun f => a.contains f.2).map (·.1)

/-- The parts of a set's text: its names, and a numeral for what has no name. -/
def parts (a : Flags) : List String :=
  let rest := a.diff all
  a.names ++ if rest.isEmpty then [] else ["0x" ++ String.ofList (Hex.write rest.bits.toNat)]

/-- The text of a set. -/
def display (a : Flags) : String := " | ".intercalate a.parts

/-- The form used in diagnostics. -/
def inspect (a : Flags) : String :=
  Diagnostic.tuple "PowerState" [if a.isEmpty then "0x0" else a.display]

/-- Read a numeral of 32 bits, which may have a plus sign in front. -/
def readNumeral? (s : List Char) : Option Flags :=
  let digits := match s with
    | '+' :: rest => rest
    | _ => s
  match Hex.read? digits with
  | some n => if n < UInt32.size then some ⟨UInt32.ofNat n⟩ else none
  | none => none

/-- Read one part: a numeral behind `0x`, or a name. -/
def readPart? (s : List Char) : Option Flags :=
  match s with
  | '0' :: 'x' :: rest => readNumeral? rest
  | _ => (named.find? fun f => f.1.toList = s).map (·.2)

/-- Read parts that stand between bars, each without the blanks around it, and join them. -/
def readParts? : List (List Char) → Option Flags
  | [] => some empty
  | part :: rest =>
    match readPart? (Blank.trim part), readParts? rest with
    | some a, some b => some (a.union b)
    | _, _ => none

/-- Read the text of a set. A blank text is the empty set. -/
def read? (s : String) : Option Flags :=
  if (Blank.trim s.toList).isEmpty then some empty else readParts? (s.toList.splitOn '|')

end Flags

end LazyHub.Power
