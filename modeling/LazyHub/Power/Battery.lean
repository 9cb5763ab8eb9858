import LazyHub.Power.Flags
import LazyHub.Power.Status

/-!
# The battery record

One record sums up every battery of a system. Three things are derived from it: how full the
batteries are, what they are doing, and whether external power suffices.

The charge is a whole percentage, rounded to the nearest with halves upwards. It is unknown if a
capacity is; a remaining capacity beyond the full one counts as full.
-/

namespace LazyHub.Power

/-- The record of all batteries of a system. -/
structure BatteryRecord where
  /-- How many batteries are active. -/
  active : UInt32
  /-- Their state. -/
  state : Flags
  /-- Their capacity when full. -/
  full : UInt32
  /-- What is left of it. -/
  remaining : UInt32
deriving DecidableEq, Inhabited

/-- The capacity reported by a battery that cannot measure it. -/
def unknownCapacity : UInt32 := 0xffffffff

namespace BatteryRecord

/-- The charge as a whole percentage, if it is known. -/
def charge (r : BatteryRecord) : Option UInt8 :=
  if r.full = unknownCapacity || r.full = 0 || r.remaining = unknownCapacity then none
  else if r.full < r.remaining then some 100
  else
    let percent := (r.remaining.toUInt64 * 200 / r.full.toUInt64 + 1) / 2
    if percent < 256 then some percent.toUInt8 else none

/-- What the batteries are doing. -/
def batteryStatus (r : BatteryRecord) : BatteryStatus :=
  if r.active = 0 then .notPresent
  else if r.state.contains .discharging then .discharging
  else if r.state.contains .charging then .charging
  else .idle

/-- Whether external power is connected and suffices. -/
def powerSupply (r : BatteryRecord) : PowerSupply :=
  if !r.state.contains .onLine then .notPresent
  else if r.state.contains .discharging then .inadequate
  else .adequate

end BatteryRecord

/-- The charge as a number for those who cannot represent an unknown one, which they are told as
a number that is no percentage. -/
def legacyCharge : Option UInt8 → Nat
  | some percent => percent.toNat
  | none => 99999

end LazyHub.Power
