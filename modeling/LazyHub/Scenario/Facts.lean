import LazyHub.Power.Catalog
import LazyHub.Power.Record
import LazyHub.Scenario.Reply
import LazyHub.Settings

/-!
# Facts about values

Questions that need no hub: what is derived from a battery record, what a code or a GUID stands
for, what sets of flags have in common, and how a value reads once it is written.
-/

namespace LazyHub.Scenario

open Text Power

namespace Reply

mutual

/-- A document as a reply. Numbers are natural, since no power value holds others. -/
def ofDocument : Document → Reply
  | .null => .nothing
  | .truth b => .truth b
  | .integer n => .number n.toNat
  | .fraction => .nothing
  | .text s => .text s
  | .list items => .list (ofDocuments items)
  | .record fields => .record (ofFields fields)

/-- Documents in order. -/
def ofDocuments : List Document → List Reply
  | [] => []
  | d :: rest => ofDocument d :: ofDocuments rest

/-- Documents with names. -/
def ofFields : List (String × Document) → List (String × Reply)
  | [] => []
  | (name, d) :: rest => (name, ofDocument d) :: ofFields rest

end

/-- A result of decoding. -/
def ofDecoded {α : Type} (f : α → Reply) : Except DecodeFailure α → Reply
  | .ok a => f a
  | .error failure => .decodeFailure failure

end Reply

/-- How full the batteries are according to emissions. -/
def emittedCharge (out : Emissions Value) : Reply :=
  match out.get? PowerSignal.remainingChargePercent.key with
  | some (.percent p) => .ofNumber? (p.map (·.toNat))
  | _ => .nothing

/-- The code of a status according to emissions. -/
def emittedCode (out : Emissions Value) (s : PowerSignal) : Reply :=
  match out.get? s.key with
  | some (.battery b) => .number (Coded.code b).toNat
  | some (.supply p) => .number (Coded.code p).toNat
  | _ => .nothing

/-- What is derived from a battery record, directly and through its decoder. -/
def batteryFacts (r : BatteryRecord) : Reply :=
  let out := Report.decodeBattery r
  .record
    [("percent", .ofNumber? (r.charge.map (·.toNat))), ("legacy", .number (legacyCharge r.charge)),
      ("status", .text (Coded.label r.batteryStatus)), ("supply", .text (Coded.label r.powerSupply)),
      ("emitted", .list (out.signals.map fun s => .number s.index)),
      ("fan", .list [emittedCharge out, emittedCode out .batteryStatus, emittedCode out .powerSupplyStatus])]

/-- A set of flags as the number of its word. -/
def flagsNumber (a : Flags) : Reply := .number a.bits.toNat

/-- What two sets of flags are, and have in common. -/
def flagsFacts (a b : Flags) : Reply :=
  .record
    [("strict", .ofNumber? ((Flags.ofBits? a.bits).map (·.bits.toNat))), ("truncated", flagsNumber a.known),
      ("debug", .text a.inspect), ("names", .list (a.names.map .text)), ("contains", .truth (a.contains b)),
      ("intersects", .truth (a.intersects b)),
      ("ops",
        .list
          [flagsNumber (a.union b), flagsNumber (a.inter b), flagsNumber (a.symmDiff b), flagsNumber (a.diff b),
            flagsNumber a.compl]),
      ("empty_all", .list [.truth a.isEmpty, .truth a.isAll])]

/-- What a code stands for in an enumeration, with the code read back. -/
def codeFacts (α : Type) [Coded α] (code : UInt32) : Reply :=
  .ofDecoded (fun a : α => .list [.text (Coded.label a), .number (Coded.code a).toNat]) (Coded.ofCode code)

/-- What a code stands for in the enumeration of a type; other types have no codes. -/
def codeFactsOf (type : ValueType) (code : UInt32) : Reply :=
  match type with
  | .energySaver => codeFacts EnergySaver code
  | .battery => codeFacts BatteryStatus code
  | .supply => codeFacts PowerSupply code
  | .source => codeFacts PowerSource code
  | .display => codeFacts Display code
  | .presence => codeFacts UserPresence code
  | .awayMode => codeFacts AwayMode code
  | _ => .nothing

/-- What a GUID stands for, with the GUID read back. -/
def schemeFacts (g : Guid) : Reply :=
  .ofDecoded (fun s => .list [.text s.label, .text s.guid.display]) (Scheme.ofGuid g)

/-- The types that can be written as documents. -/
inductive Written where
  /-- The enumeration of a type. -/
  | enumeration (type : ValueType)
  /-- Sets of flags. -/
  | flags
  /-- Battery records. -/
  | record

/-- A document read in some way and written again. -/
def readBack {α : Type} (read : Option α) (write : α → Document) : Reply :=
  match read with
  | some a => .record [("ok", .ofDocument (write a))]
  | none => .refused .unreadable

/-- The label of an enumeration's member, read and written again. -/
def relabelled {α : Type} (ofLabel? : String → Option α) (label : α → String) (d : Document) : Reply :=
  readBack (readLabelled? ofLabel? d) fun a => .text (label a)

/-- A document read as a type and written again. -/
def readBackAs (type : Written) (d : Document) : Reply :=
  match type with
  | .flags => readBack (Flags.ofDocument? d) Flags.toDocument
  | .record => readBack (BatteryRecord.ofDocument? d) BatteryRecord.toDocument
  | .enumeration .energySaver => relabelled (Coded.ofLabel? : String → Option EnergySaver) Coded.label d
  | .enumeration .battery => relabelled (Coded.ofLabel? : String → Option BatteryStatus) Coded.label d
  | .enumeration .supply => relabelled (Coded.ofLabel? : String → Option PowerSupply) Coded.label d
  | .enumeration .source => relabelled (Coded.ofLabel? : String → Option PowerSource) Coded.label d
  | .enumeration .display => relabelled (Coded.ofLabel? : String → Option Display) Coded.label d
  | .enumeration .presence => relabelled (Coded.ofLabel? : String → Option UserPresence) Coded.label d
  | .enumeration .awayMode => relabelled (Coded.ofLabel? : String → Option AwayMode) Coded.label d
  | .enumeration .scheme => relabelled Scheme.ofLabel? Scheme.label d
  | .enumeration _ => .refused .unreadable

/-- The settings that a hub is assembled with. -/
def settingsFacts (s : Settings) : Reply := .list [.number s.workerCount, .truth s.catches]

end LazyHub.Scenario
