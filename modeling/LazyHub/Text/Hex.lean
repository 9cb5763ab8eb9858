/-!
# Hexadecimal numerals

Natural numbers in base sixteen. They are written with lower-case digits and no leading zeros;
upper-case digits and leading zeros are read as well.
-/

namespace LazyHub.Text.Hex

/-- The value of a digit. -/
def digit? (c : Char) : Option Nat :=
  if '0' ≤ c ∧ c ≤ '9' then some (c.toNat - 48)
  else if 'a' ≤ c ∧ c ≤ 'f' then some (c.toNat - 87)
  else if 'A' ≤ c ∧ c ≤ 'F' then some (c.toNat - 55)
  else none

/-- The number that digits stand for behind a number already read. -/
def readOn (n : Nat) : List Char → Option Nat
  | [] => some n
  | c :: rest =>
    match digit? c with
    | some d => readOn (16 * n + d) rest
    | none => none

/-- The number that a numeral stands for; a numeral has at least one digit. -/
def read? (s : List Char) : Option Nat := if s.isEmpty then none else readOn 0 s

/-- The numeral of a number. -/
def write (n : Nat) : List Char := Nat.toDigits 16 n

/-- The numeral of a number with at least so many digits. -/
def writePadded (width n : Nat) : List Char :=
  let digits := write n
  List.replicate (width - digits.length) '0' ++ digits

end LazyHub.Text.Hex
