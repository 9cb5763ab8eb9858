import LazyHub.Power.Catalog
import Mathlib.Data.List.Nodup

/-!
# What payloads stand for

A payload that is a code or a GUID stands for a value only if the code or the GUID is declared
(`Report.IsDeclared`); every other payload stands for something. A payload that does is decoded to values
of the signals that its kind feeds, each of its signal's type (`Report.decode_of_declared`), and one that
does not is turned down as unrecognized (`Report.decode_of_undeclared`).

Where a kind feeds one signal the value says all that the payload said: `Report.encode?` goes back from the
value to the payload. Which codes and GUIDs are declared, and what they stand for, is listed in `Report.declared`.
-/

namespace LazyHub.Power

/-! ### Codes and GUIDs -/

section Coded

variable {α : Type} [Coded α]

/-- A code that is read back as a member is the member's. -/
theorem Coded.code_of_ofCode {n : UInt32} {a : α} (read : Coded.ofCode n = .ok a) : Coded.code a = n := by
  unfold Coded.ofCode at read
  split at read
  · rename_i found
    cases read
    simpa using List.find?_some found
  · cases read

/-- A member's code is read back. -/
theorem Coded.exists_of_code {n : UInt32} (all : ∀ a : α, a ∈ (Coded.members : List α)) (declared : ∃ a : α, Coded.code a = n) :
    ∃ a : α, Coded.ofCode n = .ok a ∧ Coded.code a = n := by
  obtain ⟨a, code⟩ := declared
  have found : ((Coded.members : List α).find? (Coded.code · = n)).isSome := List.find?_isSome.2 ⟨a, all a, by simpa using code⟩
  obtain ⟨b, found⟩ := Option.isSome_iff_exists.1 found
  have read : Coded.ofCode n = .ok b := by rw [Coded.ofCode, found]
  exact ⟨b, read, Coded.code_of_ofCode read⟩

/-- A code that is no member's is not recognized. -/
theorem Coded.unrecognized {n : UInt32} (undeclared : ¬ ∃ a : α, Coded.code a = n) :
    Coded.ofCode (α := α) n = .error (.unrecognized (Coded.title α) (toString n.toNat)) := by
  cases read : Coded.ofCode (α := α) n with
  | ok a => exact absurd ⟨a, Coded.code_of_ofCode read⟩ undeclared
  | error failure =>
    unfold Coded.ofCode at read
    split at read <;> cases read
    rfl

end Coded

theorem Scheme.mem_members (s : Scheme) : s ∈ members := by cases s <;> decide

theorem Scheme.guid_of_ofGuid {g : Guid} {s : Scheme} (read : ofGuid g = .ok s) : s.guid = g := by
  unfold ofGuid at read
  split at read
  · rename_i found
    cases read
    simpa using List.find?_some found
  · cases read

theorem Scheme.exists_of_guid {g : Guid} (declared : ∃ s : Scheme, s.guid = g) : ∃ s, ofGuid g = .ok s ∧ s.guid = g := by
  obtain ⟨s, guid⟩ := declared
  have found : (members.find? (Scheme.guid · = g)).isSome := List.find?_isSome.2 ⟨s, s.mem_members, by simpa using guid⟩
  obtain ⟨t, found⟩ := Option.isSome_iff_exists.1 found
  have read : ofGuid g = .ok t := by rw [ofGuid, found]
  exact ⟨t, read, guid_of_ofGuid read⟩

theorem Scheme.unrecognized {g : Guid} (undeclared : ¬ ∃ s : Scheme, s.guid = g) :
    ofGuid g = .error (.unrecognized "power scheme" g.display) := by
  cases read : ofGuid g with
  | ok s => exact absurd ⟨s, guid_of_ofGuid read⟩ undeclared
  | error failure =>
    unfold ofGuid at read
    split at read <;> cases read
    rfl

/-! ### The catalog -/

namespace SourceKind

theorem mem_all (k : SourceKind) : k ∈ all := by cases k <;> decide

end SourceKind

namespace PowerSignal

theorem mem_all (p : PowerSignal) : p ∈ all := by cases p <;> decide

theorem nodup_ids : (all.map (·.key.id)).Nodup := by decide

/-- A signal is known by its number. -/
theorem eq_of_id {p q : PowerSignal} (same : p.key.id = q.key.id) : p = q :=
  List.inj_on_of_nodup_map nodup_ids p.mem_all q.mem_all same

theorem mem_signals {p : PowerSignal} {k : SourceKind} : p ∈ k.signals ↔ p.source = k := by
  simp [SourceKind.signals, p.mem_all]

end PowerSignal

/-! ### Payloads -/

namespace Report

/-- A payload that is a code or a GUID is one that is declared for its signal. -/
def IsDeclared : Report → Prop
  | energySaver code => ∃ s : EnergySaver, Coded.code s = code
  | powerSource code => ∃ s : PowerSource, Coded.code s = code
  | display code => ∃ s : Display, Coded.code s = code
  | powerScheme guid => ∃ s : Scheme, s.guid = guid
  | userPresence code => ∃ s : UserPresence, Coded.code s = code
  | systemAwayMode code => ∃ s : AwayMode, Coded.code s = code
  | compositeBattery _ | dischargeTime _ | systemIdle _ => True

/-- The payload that a value says everything of. -/
def encode? : Value → Option Report
  | .energySaver s => some (energySaver (Coded.code s))
  | .duration seconds => some (dischargeTime seconds)
  | .source s => some (powerSource (Coded.code s))
  | .display s => some (display (Coded.code s))
  | .long tick => some (systemIdle tick)
  | .scheme s => some (powerScheme s.guid)
  | .presence s => some (userPresence (Coded.code s))
  | .awayMode s => some (systemAwayMode (Coded.code s))
  | _ => none

/-- A value is one of a signal that a kind feeds, and of the signal's type. -/
def Suits (k : SourceKind) (e : Emission Value) : Prop :=
  ∃ p ∈ k.signals, e.signal = p.key.id ∧ SignalValue.typeOf e.value = p.key.type

/-- A payload of a kind with one signal is decoded to the value of that signal which says everything of it. -/
def StandsFor (r : Report) (p : PowerSignal) (v : Value) : Prop :=
  r.decode = .ok ⟨[⟨p.key.id, v⟩]⟩ ∧ SignalValue.typeOf v = p.key.type ∧ encode? v = some r

theorem one_of_ok {α : Type} {p : PowerSignal} {f : α → Value} {converted : Except DecodeFailure α} {a : α}
    (ok : converted = .ok a) : one p f converted = .ok ⟨[⟨p.key.id, f a⟩]⟩ := by
  rw [ok]
  rfl

theorem one_of_error {α : Type} {p : PowerSignal} {f : α → Value} {converted : Except DecodeFailure α} {failure : DecodeFailure}
    (refused : converted = .error failure) : one p f converted = .error failure := by
  rw [refused]
  rfl

/-- **A declared payload of a kind with one signal** stands for a value of it. -/
theorem exists_standsFor {r : Report} (declared : r.IsDeclared) {p : PowerSignal} (fed : r.kind.signals = [p]) :
    ∃ v, r.StandsFor p v := by
  cases r with
  | compositeBattery => cases fed
  | dischargeTime seconds =>
    cases fed
    exact ⟨.duration seconds, rfl, rfl, rfl⟩
  | systemIdle tick =>
    cases fed
    exact ⟨.long tick, rfl, rfl, rfl⟩
  | energySaver code =>
    cases fed
    obtain ⟨s, read, rfl⟩ := Coded.exists_of_code (fun s : EnergySaver => by cases s <;> decide) declared
    exact ⟨.energySaver s, one_of_ok read, rfl, rfl⟩
  | powerSource code =>
    cases fed
    obtain ⟨s, read, rfl⟩ := Coded.exists_of_code (fun s : PowerSource => by cases s <;> decide) declared
    exact ⟨.source s, one_of_ok read, rfl, rfl⟩
  | display code =>
    cases fed
    obtain ⟨s, read, rfl⟩ := Coded.exists_of_code (fun s : Display => by cases s <;> decide) declared
    exact ⟨.display s, one_of_ok read, rfl, rfl⟩
  | powerScheme guid =>
    cases fed
    obtain ⟨s, read, rfl⟩ := Scheme.exists_of_guid declared
    exact ⟨.scheme s, one_of_ok read, rfl, rfl⟩
  | userPresence code =>
    cases fed
    obtain ⟨s, read, rfl⟩ := Coded.exists_of_code (fun s : UserPresence => by cases s <;> decide) declared
    exact ⟨.presence s, one_of_ok read, rfl, rfl⟩
  | systemAwayMode code =>
    cases fed
    obtain ⟨s, read, rfl⟩ := Coded.exists_of_code (fun s : AwayMode => by cases s <;> decide) declared
    exact ⟨.awayMode s, one_of_ok read, rfl, rfl⟩

/-- A kind other than the battery record's feeds one signal. -/
theorem signals_of_ne {k : SourceKind} (other : k ≠ .compositeBattery) : ∃ p, k.signals = [p] := by
  cases k with
  | compositeBattery => exact absurd rfl other
  | _ => exact ⟨_, rfl⟩

/-- **A declared payload** is decoded to values that suit its kind. -/
theorem decode_of_declared {r : Report} (declared : r.IsDeclared) :
    ∃ out, r.decode = .ok out ∧ ∀ e ∈ out.toList, Suits r.kind e := by
  by_cases battery : r.kind = .compositeBattery
  · cases r with
    | compositeBattery record =>
      refine ⟨decodeBattery record, rfl, fun e mem => ?_⟩
      have three : (decodeBattery record).toList =
          [⟨PowerSignal.remainingChargePercent.key.id, .percent record.charge⟩,
            ⟨PowerSignal.batteryStatus.key.id, .battery record.batteryStatus⟩,
            ⟨PowerSignal.powerSupplyStatus.key.id, .supply record.powerSupply⟩] := rfl
      rw [three] at mem
      rcases mem with _ | ⟨_, _ | ⟨_, _ | ⟨_, ⟨⟩⟩⟩⟩
      · exact ⟨.remainingChargePercent, PowerSignal.mem_signals.2 rfl, rfl, rfl⟩
      · exact ⟨.batteryStatus, PowerSignal.mem_signals.2 rfl, rfl, rfl⟩
      · exact ⟨.powerSupplyStatus, PowerSignal.mem_signals.2 rfl, rfl, rfl⟩
    | _ => cases battery
  · obtain ⟨p, fed⟩ := signals_of_ne battery
    obtain ⟨v, decodes, typed, -⟩ := exists_standsFor declared fed
    refine ⟨_, decodes, fun e mem => ?_⟩
    obtain rfl := List.mem_singleton.1 mem
    exact ⟨p, fed ▸ List.mem_singleton_self p, rfl, typed⟩

/-- **An undeclared payload** is not recognized. -/
theorem decode_of_undeclared {r : Report} (undeclared : ¬ r.IsDeclared) :
    ∃ what value, r.decode = .error (.unrecognized what value) := by
  cases r with
  | compositeBattery | dischargeTime | systemIdle => exact absurd trivial undeclared
  | powerScheme guid => exact ⟨_, _, one_of_error (Scheme.unrecognized undeclared)⟩
  | energySaver | powerSource | display | userPresence | systemAwayMode =>
    exact ⟨_, _, one_of_error (Coded.unrecognized undeclared)⟩

end Report

/-! ### The codes and GUIDs -/

namespace Report

/-- The payloads that are codes or GUIDs, each with the value that it stands for. -/
def declared : List (Report × Value) :=
  [(.energySaver 0, .energySaver .disabled), (.energySaver 1, .energySaver .off), (.energySaver 2, .energySaver .on),
    (.powerSource 0, .source .ac), (.powerSource 1, .source .dc), (.powerSource 2, .source .shortTerm),
    (.display 0, .display .off), (.display 1, .display .on), (.display 2, .display .dimmed),
    (.userPresence 0, .presence .present), (.userPresence 1, .presence .absent),
    (.systemAwayMode 0, .awayMode .exiting), (.systemAwayMode 1, .awayMode .entering),
    (.powerScheme ⟨0x8c5e7fda_e8bf_4a96_9a85_a6e23a8c635c⟩, .scheme .highPerformance),
    (.powerScheme ⟨0xa1841308_3541_4fab_bc81_f71556f20b4a⟩, .scheme .powerSaver),
    (.powerScheme ⟨0x381b4222_f694_41f0_9685_ff5bb260df2e⟩, .scheme .balanced)]

/-- **The table of codes and GUIDs**: where a payload is one, what it stands for is what the table says. -/
theorem standsFor_iff {r : Report} (coded : r.kind ∉ [.compositeBattery, .dischargeTime, .systemIdle]) {v : Value} :
    (∃ p, r.StandsFor p v) ↔ (r, v) ∈ declared := by
  constructor
  · rintro ⟨p, -, -, encodes⟩
    cases v with
    | duration | long =>
      cases encodes
      simp [Report.kind] at coded
    | energySaver s | source s | display s | scheme s | presence s | awayMode s =>
      cases encodes
      cases s <;> decide
    | _ => cases encodes
  · intro mem
    have table : ∀ x ∈ declared, ∃ p ∈ PowerSignal.all, x.1.StandsFor p x.2 := by
      simp only [StandsFor]
      decide
    obtain ⟨p, -, stands⟩ := table _ mem
    exact ⟨p, stands⟩

/-- A code or a GUID is declared if the table has it. -/
theorem isDeclared_iff {r : Report} (coded : r.kind ∉ [.compositeBattery, .dischargeTime, .systemIdle]) :
    r.IsDeclared ↔ r ∈ declared.map (·.1) := by
  constructor
  · intro isDeclared
    obtain ⟨p, fed⟩ := signals_of_ne (k := r.kind) fun battery => coded (by simp [battery])
    obtain ⟨v, stands⟩ := exists_standsFor isDeclared fed
    exact List.mem_map.2 ⟨_, (standsFor_iff coded).1 ⟨p, stands⟩, rfl⟩
  · intro mem
    obtain ⟨⟨r, v⟩, among, rfl⟩ := List.mem_map.1 mem
    obtain ⟨p, decodes, -⟩ := (standsFor_iff coded).2 among
    by_contra undeclared
    obtain ⟨what, value, refused⟩ := decode_of_undeclared undeclared
    cases decodes.symm.trans refused

end Report

/-- A value other than a floating-point number leaves only its equals standing. -/
theorem eq_of_same {u v : Value} (unreal : v.type ≠ .real) (same : SignalValue.same u v = true) : u = v := by
  change Value.same u v = true at same
  unfold Value.same at same
  split at same
  · exact absurd rfl unreal
  · exact of_decide_eq_true same

theorem Report.unreal_of_encode? {v : Value} {r : Report} (encodes : encode? v = some r) : v.type ≠ .real := by
  rintro real
  cases v <;> cases real
  cases encodes

end LazyHub.Power
