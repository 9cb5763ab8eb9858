import LazyHub.Identity

/-!
# Cells and gates

A `Cell` holds the last known value of one signal. A `Gate` stands in front of a cell and lets
a value through only if it differs from the one held: `Gate.offer` tells whether it did, which
is whether the signal's subscribers are owed a notification.
-/

namespace LazyHub

variable {V : Type}

/-- The last known value of one signal. -/
structure Cell (V : Type) where
  /-- The value held. -/
  value : V
deriving DecidableEq

namespace Cell

/-- Overwrite the value, whatever it was. -/
def seed (_ : Cell V) (value : V) : Cell V := ⟨value⟩

/-- Take over a value if it differs from the one held, and tell whether it did. A value that
is the same leaves the one held in place. -/
def replaceIfChanged [SignalValue V] (c : Cell V) (value : V) : Bool × Cell V :=
  if SignalValue.same c.value value then (false, c) else (true, ⟨value⟩)

end Cell

/-- A cell that is written only through the test for a change. -/
structure Gate (V : Type) where
  /-- The cell behind the gate. -/
  cell : Cell V
deriving DecidableEq

namespace Gate

/-- A gate in front of a cell with a first value. -/
def ofInitial (value : V) : Gate V := ⟨⟨value⟩⟩

/-- The value behind the gate. -/
def value (g : Gate V) : V := g.cell.value

/-- Offer a value to the gate, and tell whether it was a change. -/
def offer [SignalValue V] (g : Gate V) (value : V) : Bool × Gate V :=
  let (changed, cell) := g.cell.replaceIfChanged value
  (changed, ⟨cell⟩)

end Gate

end LazyHub
