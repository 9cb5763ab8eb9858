import LazyHub.Feed.Basic
import LazyHub.Power.Battery
import LazyHub.Value

/-!
# The catalog of power signals

Nine kinds of provider feed eleven signals: each kind feeds one, except the battery record, from
which three are derived. A provider's payload is a `Report`; `Report.decode` makes of it the
values of the signals that its kind feeds, or fails if the payload is a code or a GUID that
stands for nothing.
-/

namespace LazyHub.Power

/-- The kinds of power provider. -/
inductive SourceKind where
  /-- Reports the energy saver's state by code. -/
  | energySaver
  /-- Reports the battery record. -/
  | compositeBattery
  /-- Reports the remaining discharge time in seconds. -/
  | dischargeTime
  /-- Reports the source of power by code. -/
  | powerSource
  /-- Reports the display's state by code. -/
  | display
  /-- Reports the number of the last idle tick. -/
  | systemIdle
  /-- Reports the power scheme by GUID. -/
  | powerScheme
  /-- Reports by code whether the user is there. -/
  | userPresence
  /-- Reports by code whether the system is in away mode. -/
  | systemAwayMode
deriving DecidableEq, Inhabited

namespace SourceKind

/-- The kinds, in the order in which a monitor takes them. -/
def all : List SourceKind :=
  [energySaver, compositeBattery, dischargeTime, powerSource, display, systemIdle, powerScheme,
    userPresence, systemAwayMode]

/-- The kind's name. -/
def kind : SourceKind → Kind
  | energySaver => ⟨"energy_saver"⟩
  | compositeBattery => ⟨"composite_battery"⟩
  | dischargeTime => ⟨"discharge_time"⟩
  | powerSource => ⟨"power_source"⟩
  | display => ⟨"display_status"⟩
  | systemIdle => ⟨"system_idle"⟩
  | powerScheme => ⟨"power_scheme_personality"⟩
  | userPresence => ⟨"user_presence"⟩
  | systemAwayMode => ⟨"system_away_mode"⟩

/-- The name under which a monitor's client hands over a provider of the kind. -/
def slot : SourceKind → String
  | display => "display"
  | powerScheme => "power_scheme"
  | k => k.kind.name

end SourceKind

/-- The power signals. -/
inductive PowerSignal where
  /-- The energy saver's state. -/
  | energySaverStatus
  /-- The charge of the batteries. -/
  | remainingChargePercent
  /-- What the batteries are doing. -/
  | batteryStatus
  /-- How external power is doing. -/
  | powerSupplyStatus
  /-- How long the batteries will last. -/
  | remainingDischargeTime
  /-- Where the power comes from. -/
  | powerSourceStatus
  /-- The display's state. -/
  | displayStatus
  /-- The number of the last idle tick. -/
  | systemIdle
  /-- The power scheme. -/
  | powerSchemePersonality
  /-- Whether the user is there. -/
  | userPresenceStatus
  /-- Whether the system is in away mode. -/
  | systemAwayModeStatus
deriving DecidableEq, Inhabited

namespace PowerSignal

/-- The signals, in ascending order of identity. -/
def all : List PowerSignal :=
  [energySaverStatus, remainingChargePercent, batteryStatus, powerSupplyStatus, remainingDischargeTime,
    powerSourceStatus, displayStatus, systemIdle, powerSchemePersonality, userPresenceStatus,
    systemAwayModeStatus]

/-- The key of a signal. -/
def key : PowerSignal → Key
  | energySaverStatus => ⟨⟨1⟩, "energy_saver_status", ValueType.energySaver.name⟩
  | remainingChargePercent => ⟨⟨2⟩, "remaining_charge_percent", ValueType.percent.name⟩
  | batteryStatus => ⟨⟨3⟩, "battery_status", ValueType.battery.name⟩
  | powerSupplyStatus => ⟨⟨4⟩, "power_supply_status", ValueType.supply.name⟩
  | remainingDischargeTime => ⟨⟨5⟩, "remaining_discharge_time", ValueType.duration.name⟩
  | powerSourceStatus => ⟨⟨6⟩, "power_source_status", ValueType.source.name⟩
  | displayStatus => ⟨⟨7⟩, "display_status", ValueType.display.name⟩
  | systemIdle => ⟨⟨8⟩, "system_idle", ValueType.long.name⟩
  | powerSchemePersonality => ⟨⟨9⟩, "power_scheme_personality", ValueType.scheme.name⟩
  | userPresenceStatus => ⟨⟨10⟩, "user_presence_status", ValueType.presence.name⟩
  | systemAwayModeStatus => ⟨⟨11⟩, "system_away_mode_status", ValueType.awayMode.name⟩

/-- The value that a signal's cell holds before anything is known. -/
def initial : PowerSignal → Value
  | energySaverStatus => .energySaver .disabled
  | remainingChargePercent => .percent none
  | batteryStatus => .battery .notPresent
  | powerSupplyStatus => .supply .notPresent
  | remainingDischargeTime => .duration 0
  | powerSourceStatus => .source .ac
  | displayStatus => .display .on
  | systemIdle => .long 0
  | powerSchemePersonality => .scheme .balanced
  | userPresenceStatus => .presence .present
  | systemAwayModeStatus => .awayMode .exiting

/-- The kind of provider that feeds a signal. -/
def source : PowerSignal → SourceKind
  | energySaverStatus => .energySaver
  | remainingChargePercent | batteryStatus | powerSupplyStatus => .compositeBattery
  | remainingDischargeTime => .dischargeTime
  | powerSourceStatus => .powerSource
  | displayStatus => .display
  | systemIdle => .systemIdle
  | powerSchemePersonality => .powerScheme
  | userPresenceStatus => .userPresence
  | systemAwayModeStatus => .systemAwayMode

/-- The signal as declared to a hub. -/
def declaration (s : PowerSignal) : Declaration Value := ⟨s.key, s.initial⟩

/-- The signal with a name. -/
def ofName? (name : String) : Option PowerSignal := all.find? (·.key.name = name)

end PowerSignal

namespace SourceKind

/-- The signals that a kind feeds, in order. -/
def signals (k : SourceKind) : List PowerSignal := PowerSignal.all.filter (·.source = k)

/-- The feed of a kind, as planned for a hub. -/
def plan (k : SourceKind) : FeedPlan Value := ⟨k.kind, k.signals.map PowerSignal.declaration⟩

/-- The kind with a name. -/
def ofName? (name : String) : Option SourceKind := all.find? (·.kind.name = name)

end SourceKind

/-- The payload of a power provider. -/
inductive Report where
  /-- A code of the energy saver's state. -/
  | energySaver (code : UInt32)
  /-- The battery record. -/
  | compositeBattery (record : BatteryRecord)
  /-- The remaining discharge time in seconds. -/
  | dischargeTime (seconds : UInt64)
  /-- A code of the source of power. -/
  | powerSource (code : UInt32)
  /-- A code of the display's state. -/
  | display (code : UInt32)
  /-- The number of the last idle tick. -/
  | systemIdle (tick : UInt64)
  /-- The GUID of the power scheme. -/
  | powerScheme (guid : Guid)
  /-- A code that says whether the user is there. -/
  | userPresence (code : UInt32)
  /-- A code that says whether the system is in away mode. -/
  | systemAwayMode (code : UInt32)
deriving DecidableEq

namespace Report

/-- The kind of provider that reports it. -/
def kind : Report → SourceKind
  | energySaver _ => .energySaver
  | compositeBattery _ => .compositeBattery
  | dischargeTime _ => .dischargeTime
  | powerSource _ => .powerSource
  | display _ => .display
  | systemIdle _ => .systemIdle
  | powerScheme _ => .powerScheme
  | userPresence _ => .userPresence
  | systemAwayMode _ => .systemAwayMode

/-- The one value of a signal, if the payload stands for one. -/
def one {α : Type} (signal : PowerSignal) (f : α → Value) (converted : Except DecodeFailure α) :
    Except DecodeFailure (Emissions Value) :=
  Emissions.single signal.key.id (converted.map f) .empty

/-- The three values derived from a battery record. -/
def decodeBattery (r : BatteryRecord) : Emissions Value :=
  ((Emissions.empty.emit PowerSignal.remainingChargePercent.key.id (.percent r.charge)).emit
    PowerSignal.batteryStatus.key.id (.battery r.batteryStatus)).emit
    PowerSignal.powerSupplyStatus.key.id (.supply r.powerSupply)

/-- The values of the signals that a payload's kind feeds. -/
def decode : Report → Except DecodeFailure (Emissions Value)
  | energySaver code => one .energySaverStatus .energySaver (Coded.ofCode code)
  | compositeBattery record => .ok (decodeBattery record)
  | dischargeTime seconds => one .remainingDischargeTime .duration (.ok seconds)
  | powerSource code => one .powerSourceStatus .source (Coded.ofCode code)
  | display code => one .displayStatus .display (Coded.ofCode code)
  | systemIdle tick => one .systemIdle .long (.ok tick)
  | powerScheme guid => one .powerSchemePersonality .scheme (Scheme.ofGuid guid)
  | userPresence code => one .userPresenceStatus .presence (Coded.ofCode code)
  | systemAwayMode code => one .systemAwayModeStatus .awayMode (Coded.ofCode code)

end Report

end LazyHub.Power
