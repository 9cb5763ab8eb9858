import LazyHub.Text.Attaching
import LazyHub.Text.Unprinted

/-!
# Quoted text

The written form of a text value inside a diagnostic: the text between double quotes, with the
characters that would not survive on one line written as escapes. `Quoted.quote` is the whole
form, `Quoted.escape` the form of one character.
-/

namespace LazyHub.Text.Quoted

/-- A character as its code in lower-case hexadecimal, such as the one after `u` for an accent. -/
def codeEscape (c : Char) : String :=
  "\\u\x7b" ++ String.ofList (Nat.toDigits 16 c.toNat) ++ "\x7d"

/-- Whether a character is written by its code: alone it would be invisible or misplaced. -/
def isCoded (c : Char) : Bool := Unprinted.isUnprinted c || Attaching.isAttaching c

/-- The written form of one character: the quote, the backslash and the common controls have
short escapes, what would be invisible or misplaced is written by code, all else stands for
itself. -/
def escape (c : Char) : String :=
  match c with
  | '"' => "\\\""
  | '\\' => "\\\\"
  | '\t' => "\\t"
  | '\n' => "\\n"
  | '\r' => "\\r"
  | '\x00' => "\\0"
  | c => if isCoded c then codeEscape c else c.toString

/-- A text between double quotes, every character in its written form. -/
def quote (s : String) : String := "\"" ++ String.join (s.toList.map escape) ++ "\""

end LazyHub.Text.Quoted
