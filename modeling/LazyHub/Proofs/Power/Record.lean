import LazyHub.Power.Record
import LazyHub.Proofs.Power.Spelling

/-!
# Written records

A battery record is read as what it was written for. It does not matter in which order its fields stand or what other
fields stand between them (`BatteryRecord.ofDocument?_of_perm`), since a field is found by its name alone
(`Text.Document.field?_eq_of_perm`), and it may also be a list of what the fields hold.

`BatteryRecord.reads_back` says this for every record, and of the state of the batteries also for texts that were not
written for any: whatever spells a set of flags is read, and what is then written for the set is read as the same set,
with each flag named once.
-/

namespace LazyHub

open Text

namespace Text.Document

variable {name : String} {fields known unknown : List (String × Document)}

/-- A field is found if it is the only one with its name. -/
theorem field?_eq_some_iff {d : Document} :
    field? name fields = some d ↔ fields.filter (·.1 = name) = [(name, d)] := by
  rw [field?]
  constructor
  · intro found
    split at found
    · rename_i f only
      cases found
      have mem : f ∈ fields.filter (·.1 = name) := only ▸ List.mem_singleton_self f
      rw [only, ← of_decide_eq_true (List.mem_filter.1 mem).2]
    · cases found
  · intro only
    rw [only]

/-- **A field is found by its name alone**, wherever it stands and whatever fields with other names there are. -/
theorem field?_eq_of_perm (perm : fields.Perm (known ++ unknown)) (fresh : ∀ f ∈ unknown, f.1 ≠ name) :
    field? name fields = field? name known := by
  have others : unknown.filter (·.1 = name) = [] :=
    List.filter_eq_nil_iff.2 fun f mem => by simpa using fresh f mem
  have perm : (fields.filter (·.1 = name)).Perm (known.filter (·.1 = name)) := by
    have := perm.filter (·.1 = name)
    rwa [List.filter_append, others, List.append_nil] at this
  refine Option.ext fun d => ?_
  rw [field?_eq_some_iff, field?_eq_some_iff]
  constructor
  · intro only
    rw [only] at perm
    exact List.perm_singleton.1 perm.symm
  · intro only
    rw [only] at perm
    exact List.perm_singleton.1 perm

end Text.Document

namespace Power

/-- A word is read as it was written. -/
theorem readWord?_writeWord (n : UInt32) : readWord? (writeWord n) = some n := by
  have word : 0 ≤ (n.toNat : ℤ) ∧ (n.toNat : ℤ).toNat < UInt32.size := ⟨Int.natCast_nonneg _, n.toNat_lt⟩
  rw [writeWord, readWord?, if_pos word, Int.toNat_natCast, UInt32.ofNat_toNat]

/-- A set of flags is read as it was written. -/
theorem Flags.ofDocument?_toDocument (a : Flags) : ofDocument? a.toDocument = some a := read?_display a

namespace BatteryRecord

/-- The fields of a record, as they are written. -/
def fields (r : BatteryRecord) : List (String × Document) :=
  [("active_battery_count", writeWord r.active), ("power_state", r.state.toDocument),
    ("full_charged_capacity", writeWord r.full), ("remaining_capacity", writeWord r.remaining)]

/-- The names of the fields. -/
def fieldNames : List String :=
  ["active_battery_count", "power_state", "full_charged_capacity", "remaining_capacity"]

variable {r : BatteryRecord}

/-- A record is made of what its fields were written for. -/
theorem ofFields?_written (r : BatteryRecord) :
    ofFields? (readWord? (writeWord r.active)) (Flags.ofDocument? r.state.toDocument) (readWord? (writeWord r.full))
      (readWord? (writeWord r.remaining)) = some r := by
  simp only [readWord?_writeWord, Flags.ofDocument?_toDocument]
  rfl

/-- **A record is read from its fields in any order**, with any others between them. -/
theorem ofDocument?_of_perm {fields' unknown : List (String × Document)} (perm : fields'.Perm (r.fields ++ unknown))
    (fresh : ∀ f ∈ unknown, f.1 ∉ fieldNames) : ofDocument? (.record fields') = some r := by
  have found : ∀ name ∈ fieldNames, Document.field? name fields' = Document.field? name r.fields :=
    fun name mem => Document.field?_eq_of_perm perm fun f mem' same => fresh f mem' (same ▸ mem)
  have active : Document.field? "active_battery_count" r.fields = some (writeWord r.active) := rfl
  have state : Document.field? "power_state" r.fields = some r.state.toDocument := rfl
  have full : Document.field? "full_charged_capacity" r.fields = some (writeWord r.full) := rfl
  have remaining : Document.field? "remaining_capacity" r.fields = some (writeWord r.remaining) := rfl
  simp only [fieldNames, List.forall_mem_cons] at found
  obtain ⟨active', state', full', remaining', -⟩ := found
  rw [ofDocument?, active', active, state', state, full', full, remaining', remaining]
  simp only [Option.bind_some]
  exact ofFields?_written r

/-- **Records and their states are read as what they were written for**:

* a record is written as a record of its four fields, and read from them in any order with any fields of other names
  among them, as well as from the list of what the four hold;
* a text is read as a set of flags exactly if it spells the set;
* what is then written for the set is read as the same set, and says nothing twice: each flag that has a name is written
  by it once, and the bits that have no name by one numeral. -/
theorem reads_back (r : BatteryRecord) :
    r.toDocument = .record r.fields ∧
    ofDocument? r.toDocument = some r ∧
    (∀ fields' unknown : List (String × Document), fields'.Perm (r.fields ++ unknown) →
      (∀ f ∈ unknown, f.1 ∉ fieldNames) → ofDocument? (.record fields') = some r) ∧
    ofDocument? (.list (r.fields.map (·.2))) = some r ∧
    ∀ (s : String) (a : Flags),
      (Flags.ofDocument? (.text s) = some a ↔ Flags.Spells s.toList a) ∧
      (Flags.ofDocument? (.text s) = some a →
        Flags.ofDocument? a.toDocument = some a ∧
          ∃ parts : List String, a.toDocument = .text (" | ".intercalate parts) ∧ a.IsNormal parts) := by
  have plain : r.fields.Perm (r.fields ++ []) := by rw [List.append_nil]
  refine ⟨rfl, ofDocument?_of_perm plain (by simp), fun fields' unknown => ofDocument?_of_perm, ofFields?_written r,
    fun s a => ⟨Flags.read?_eq_some_iff, fun _ => ?_⟩⟩
  exact ⟨a.ofDocument?_toDocument, a.parts, rfl, a.isNormal_parts⟩

/-- Batteries that are being drained, with a bit in their state that has no name. -/
def drained : BatteryRecord := { active := 2, state := ⟨0x80000002⟩, full := 5000, remaining := 40 }

/-- Fields in another order and one more make no difference, and neither does saying twice that the charge is low. -/
theorem drained_reads_back :
    ofDocument? (.record [("vendor", .null), ("remaining_capacity", .integer 40),
      ("full_charged_capacity", .integer 5000), ("power_state", .text "DISCHARGING | 0x80000000"),
      ("active_battery_count", .integer 2)]) = some drained ∧
    Flags.ofDocument? (.text " 0xF8|CRITICAL | 0x+00000010|CRITICAL ") = some ⟨0xf8⟩ ∧
    Flags.toDocument ⟨0xf8⟩ = .text "CRITICAL | 0xf0" ∧
    Flags.ofDocument? (.text "CRITICAL | 0xf0") = some ⟨0xf8⟩ := by
  obtain ⟨-, -, object, -, flags⟩ := reads_back drained
  have state : drained.state.toDocument = .text "DISCHARGING | 0x80000000" := congrArg Document.text (by decide)
  have written : Flags.toDocument ⟨0xf8⟩ = .text "CRITICAL | 0xf0" := congrArg Document.text (by decide)
  have read : Flags.ofDocument? (.text " 0xF8|CRITICAL | 0x+00000010|CRITICAL ") = some ⟨0xf8⟩ := by decide
  have record := object _ [("vendor", .null)] (List.reverse_perm _) (by decide)
  have again := ((flags _ _).2 read).1
  rw [fields, state] at record
  rw [written] at again
  exact ⟨record, read, written, again⟩

end BatteryRecord

end Power

end LazyHub
