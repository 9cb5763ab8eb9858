/-!
# Documents

The data model of structured text: a tree of lists and records over numbers, texts and truth
values. Reading a number tells only whole numbers apart; others are `fraction`s.
-/

namespace LazyHub.Text

/-- A tree of structured data. -/
inductive Document where
  /-- Nothing. -/
  | null
  /-- A truth value. -/
  | truth (b : Bool)
  /-- A whole number. -/
  | integer (n : Int)
  /-- A number that is not written as a whole one. -/
  | fraction
  /-- A text. -/
  | text (s : String)
  /-- Items in order. -/
  | list (items : List Document)
  /-- Fields with names, in order. -/
  | record (fields : List (String × Document))
deriving Inhabited

/-- The field with a name, if there is exactly one. -/
def Document.field? (name : String) (fields : List (String × Document)) : Option Document :=
  match fields.filter (·.1 = name) with
  | [f] => some f.2
  | _ => none

end LazyHub.Text
