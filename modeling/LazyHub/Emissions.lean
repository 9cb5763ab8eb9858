import LazyHub.Failure

/-!
# Emissions

Decoding a payload yields `Emissions`: values, each addressed to a signal, in the order in which
the decoder produced them. They are only collected here; a feed looks at them as a whole before
any of them takes effect.
-/

namespace LazyHub

open Text

variable {V : Type}

/-- A value addressed to a signal. -/
structure Emission (V : Type) where
  /-- The signal addressed. -/
  signal : SignalId
  /-- The value for it. -/
  value : V
deriving DecidableEq

/-- The values decoded from one payload, in order. -/
structure Emissions (V : Type) where
  /-- The values, first one first. -/
  toList : List (Emission V)
deriving DecidableEq

namespace Emissions

/-- Nothing emitted yet. -/
def empty : Emissions V := ⟨[]⟩

/-- Add a value for a signal at the end. -/
def emit (out : Emissions V) (signal : SignalId) (value : V) : Emissions V :=
  ⟨out.toList ++ [⟨signal, value⟩]⟩

/-- How many values there are. -/
def size (out : Emissions V) : Nat := out.toList.length

/-- The signals addressed, in order. -/
def signals (out : Emissions V) : List SignalId := out.toList.map (·.signal)

/-- The last value addressed to a key's signal, provided it has the key's type. -/
def get? [SignalValue V] (out : Emissions V) (key : Key) : Option V :=
  match out.toList.reverse.find? (·.signal = key.id) with
  | some e => if SignalValue.typeOf e.value = key.type then some e.value else none
  | none => none

/-- The form used in diagnostics. -/
def inspect (out : Emissions V) : String := Diagnostic.list (out.signals.map SignalId.inspect)

/-- Decode for a kind that feeds a single signal: the converted payload is the one value emitted,
and nothing is emitted if the conversion fails. -/
def single (signal : SignalId) (converted : Except DecodeFailure V) (out : Emissions V) :
    Except DecodeFailure (Emissions V) :=
  converted.map (out.emit signal)

end Emissions

end LazyHub
