import LazyHub.Text.Quoted

/-!
# Diagnostic forms

Values are shown to programmers in three shapes: a record with named fields, a tuple of
unnamed ones, and a list. The shapes are fixed here once, and every type's own form is one of
them applied to the forms of its parts.
-/

namespace LazyHub.Text.Diagnostic

/-- A record: its name, then the named fields between braces. -/
def record (name : String) (fields : List (String × String)) : String :=
  name ++ " \x7b " ++ ", ".intercalate (fields.map fun f => f.1 ++ ": " ++ f.2) ++ " \x7d"

/-- A tuple: its name, then the fields between parentheses. -/
def tuple (name : String) (fields : List String) : String :=
  name ++ "(" ++ ", ".intercalate fields ++ ")"

/-- A list between brackets. -/
def list (items : List String) : String := "[" ++ ", ".intercalate items ++ "]"

/-- A truth value. -/
def flag (b : Bool) : String := if b then "true" else "false"

end LazyHub.Text.Diagnostic
