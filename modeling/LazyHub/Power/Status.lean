import LazyHub.Failure

/-!
# Power statuses

The values that power signals carry, apart from numbers. Each is an enumeration whose members
have a code, by which providers report them, and a label, by which they are shown. `Coded`
says what the enumerations have in common: a code is read back by `Coded.ofCode`, which fails on
a number that is no member's code.
-/

namespace LazyHub.Power

/-- An enumeration whose members are reported by code. -/
class Coded (α : Type) where
  /-- The enumeration's name. -/
  title : String
  /-- The members in order. -/
  members : List α
  /-- A member's code. -/
  code : α → UInt32
  /-- What a member is called. -/
  label : α → String

namespace Coded

variable {α : Type} [Coded α]

/-- The member with a code. -/
def ofCode (n : UInt32) : Except DecodeFailure α :=
  match (members : List α).find? (code · = n) with
  | some a => .ok a
  | none => .error (.unrecognized (title α) (toString n.toNat))

/-- The member with a label. -/
def ofLabel? (s : String) : Option α := (members : List α).find? (label · = s)

end Coded

/-- Whether the system limits background work to save energy. -/
inductive EnergySaver where
  /-- There is no energy saver on this system. -/
  | disabled
  /-- It is off. -/
  | off
  /-- It is on. -/
  | on
deriving DecidableEq, Inhabited

instance : Coded EnergySaver where
  title := "EnergySaverStatus"
  members := [.disabled, .off, .on]
  code
    | .disabled => 0
    | .off => 1
    | .on => 2
  label
    | .disabled => "Disabled"
    | .off => "Off"
    | .on => "On"

/-- What the batteries are doing. -/
inductive BatteryStatus where
  /-- There is none. -/
  | notPresent
  /-- They are being drained. -/
  | discharging
  /-- They are neither drained nor charged. -/
  | idle
  /-- They are being charged. -/
  | charging
deriving DecidableEq, Inhabited

instance : Coded BatteryStatus where
  title := "BatteryStatus"
  members := [.notPresent, .discharging, .idle, .charging]
  code
    | .notPresent => 0
    | .discharging => 1
    | .idle => 2
    | .charging => 3
  label
    | .notPresent => "NotPresent"
    | .discharging => "Discharging"
    | .idle => "Idle"
    | .charging => "Charging"

/-- Whether external power is connected and keeps up with consumption. -/
inductive PowerSupply where
  /-- It is not connected. -/
  | notPresent
  /-- It is connected, but the batteries are drained all the same. -/
  | inadequate
  /-- It is connected and suffices. -/
  | adequate
deriving DecidableEq, Inhabited

instance : Coded PowerSupply where
  title := "PowerSupplyStatus"
  members := [.notPresent, .inadequate, .adequate]
  code
    | .notPresent => 0
    | .inadequate => 1
    | .adequate => 2
  label
    | .notPresent => "NotPresent"
    | .inadequate => "Inadequate"
    | .adequate => "Adequate"

/-- Where the power comes from. -/
inductive PowerSource where
  /-- From the mains. -/
  | ac
  /-- From a battery. -/
  | dc
  /-- From a source that lasts a short time, such as an uninterruptible supply. -/
  | shortTerm
deriving DecidableEq, Inhabited

instance : Coded PowerSource where
  title := "PowerSourceStatus"
  members := [.ac, .dc, .shortTerm]
  code
    | .ac => 0
    | .dc => 1
    | .shortTerm => 2
  label
    | .ac => "Ac"
    | .dc => "Dc"
    | .shortTerm => "ShortTerm"

/-- The state of the display. -/
inductive Display where
  /-- It is off. -/
  | off
  /-- It is on. -/
  | on
  /-- It is dimmed. -/
  | dimmed
deriving DecidableEq, Inhabited

instance : Coded Display where
  title := "DisplayStatus"
  members := [.off, .on, .dimmed]
  code
    | .off => 0
    | .on => 1
    | .dimmed => 2
  label
    | .off => "Off"
    | .on => "On"
    | .dimmed => "Dimmed"

/-- Whether the user is there. -/
inductive UserPresence where
  /-- The user is there. -/
  | present
  /-- The user is away. -/
  | absent
deriving DecidableEq, Inhabited

instance : Coded UserPresence where
  title := "UserPresenceStatus"
  members := [.present, .absent]
  code
    | .present => 0
    | .absent => 1
  label
    | .present => "Present"
    | .absent => "Absent"

/-- Whether the system is in away mode. -/
inductive AwayMode where
  /-- It leaves away mode. -/
  | exiting
  /-- It enters away mode. -/
  | entering
deriving DecidableEq, Inhabited

instance : Coded AwayMode where
  title := "SystemAwayModeStatus"
  members := [.exiting, .entering]
  code
    | .exiting => 0
    | .entering => 1
  label
    | .exiting => "Exiting"
    | .entering => "Entering"

end LazyHub.Power
