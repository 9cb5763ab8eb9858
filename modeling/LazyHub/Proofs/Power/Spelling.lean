import LazyHub.Power.Flags
import LazyHub.Proofs.Text
import Mathlib.Data.List.Nodup

/-!
# How flags are spelled

A set of power state flags has many spellings: names and numerals in any order, with bars between them and blanks
around them, where one may repeat what another says. `Flags.Spells` says which texts are spellings of which sets, and
the reader accepts exactly these (`Flags.read?_eq_some_iff`).

One of the spellings is what is written (`Flags.spells_display`), so that what is written is read as what it was
written for (`Flags.read?_display`). It says nothing twice: each flag that has a name is written by it, and the bits
that have no name by one numeral (`Flags.IsNormal`).

Sets are compared bit by bit (`Flags.has`). The flags that have names are single bits, which a set has or does not
have (`Flags.IsAtomic`); this is why the names of a set, together with its nameless bits, make up the set.
-/

namespace LazyHub.Power.Flags

open Text

/-! ### Sets, bit by bit -/

/-- Whether a set has the flag of a bit. -/
def has (a : Flags) (i : ℕ) : Bool := a.bits.toBitVec.getLsbD i

variable {a b : Flags} {i : ℕ}

@[simp] theorem has_empty : empty.has i = false := BitVec.getLsbD_zero

@[simp] theorem has_union : (a.union b).has i = (a.has i || b.has i) := BitVec.getLsbD_or

@[simp] theorem has_inter : (a.inter b).has i = (a.has i && b.has i) := BitVec.getLsbD_and

@[simp] theorem has_diff : (a.diff b).has i = (a.has i && !b.has i) := by
  have bound : a.has i = true → i < 32 := BitVec.lt_of_getLsbD
  cases held : a.has i with
  | false => simp_all [has, diff]
  | true => simp_all [has, diff]

theorem eq_of_has (same : ∀ i, a.has i = b.has i) : a = b := by
  have : a.bits = b.bits := UInt32.toBitVec_inj.1 (BitVec.eq_of_getLsbD_eq fun i _ => same i)
  cases a
  cases b
  exact congrArg Flags.mk this

theorem union_empty (a : Flags) : a.union empty = a := eq_of_has (by simp)

theorem empty_union (a : Flags) : empty.union a = a := eq_of_has (by simp)

theorem union_assoc (a b c : Flags) : (a.union b).union c = a.union (b.union c) := eq_of_has (by simp [Bool.or_assoc])

/-- What a set has in common with another and what it does not are all it has. -/
theorem inter_union_diff (a b : Flags) : (a.inter b).union (a.diff b) = a :=
  eq_of_has fun i => by cases h : a.has i <;> cases h' : b.has i <;> simp [h, h']

/-- The flags of any of several sets. -/
def unite (flags : List Flags) : Flags := flags.foldr union empty

@[simp] theorem unite_nil : unite [] = empty := rfl

@[simp] theorem unite_cons (flags : List Flags) : unite (a :: flags) = a.union (unite flags) := rfl

theorem unite_append (flags flags' : List Flags) : unite (flags ++ flags') = (unite flags).union (unite flags') := by
  induction flags with
  | nil => exact (empty_union _).symm
  | cons a rest ih => rw [List.cons_append, unite_cons, unite_cons, ih, union_assoc]

theorem has_unite (flags : List Flags) : (unite flags).has i = flags.any (·.has i) := by
  induction flags with
  | nil => simp
  | cons a rest ih => simp [ih]

/-! ### Flags that have names -/

/-- Flags that every set has all or none of. -/
def IsAtomic (f : Flags) : Prop := ∀ a : Flags, a.inter f = f ∨ a.inter f = empty

theorem isAtomic_of_bit {f : Flags} (k : ℕ) (bit : ∀ i, f.has i = true → i = k) : IsAtomic f := by
  intro a
  cases held : a.has k with
  | true =>
    refine .inl (eq_of_has fun i => ?_)
    cases single : f.has i with
    | false => simp [single]
    | true => simp [single, (bit i single).symm ▸ held]
  | false =>
    refine .inr (eq_of_has fun i => ?_)
    cases single : f.has i with
    | false => simp [single]
    | true => simp [(bit i single).symm ▸ held]

theorem isAtomic_of_named : ∀ f ∈ named, IsAtomic f.2 := by
  have bit : ∀ f ∈ named, ∃ k < 4, ∀ i < 32, f.2.has i = true → i = k := by decide
  intro f mem
  obtain ⟨k, -, bit⟩ := bit f mem
  exact isAtomic_of_bit k fun i held => bit i (BitVec.lt_of_getLsbD held) held

/-- Those of some flags that a set contains are what it has in common with them. -/
theorem unite_filter {flags : List Flags} (atomic : ∀ f ∈ flags, IsAtomic f) (a : Flags) :
    unite (flags.filter (a.contains ·)) = a.inter (unite flags) := by
  induction flags with
  | nil => exact eq_of_has (by simp)
  | cons f rest ih =>
    have distrib : a.inter (f.union (unite rest)) = (a.inter f).union (a.inter (unite rest)) :=
      eq_of_has (by simp [Bool.and_or_distrib_left])
    have ih := ih fun g mem => atomic g (List.mem_cons_of_mem _ mem)
    rw [unite_cons, distrib]
    by_cases whole : a.inter f = f
    · rw [List.filter_cons_of_pos (by simpa [contains] using whole), unite_cons, ih, whole]
    · have none := (atomic f List.mem_cons_self a).resolve_left whole
      rw [List.filter_cons_of_neg (by simpa [contains] using whole), ih, none, empty_union]

theorem all_eq_unite : all = unite (named.map (·.2)) := by decide

/-- The flags of a set that have no names. -/
def unnamed (a : Flags) : Flags := a.diff all

theorem has_unnamed : a.unnamed.has i = true ↔ a.has i = true ∧ ∀ f ∈ named, f.2.has i = false := by
  simp [unnamed, all_eq_unite, has_unite]

/-- **The named flags of a set and its nameless ones make up the set.** -/
theorem unite_named_union (a : Flags) :
    (unite ((named.filter fun f => a.contains f.2).map (·.2))).union a.unnamed = a := by
  have known : unite ((named.filter fun f => a.contains f.2).map (·.2)) = a.inter all := by
    have atomic : ∀ f ∈ named.map (·.2), IsAtomic f := by
      intro f mem
      obtain ⟨f, mem', rfl⟩ := List.mem_map.1 mem
      exact isAtomic_of_named f mem'
    rw [all_eq_unite, ← unite_filter atomic, List.filter_map]
    rfl
  rw [known]
  exact inter_union_diff a all

/-! ### Spellings -/

/-- What stands between bars, without the blanks around it, and the set it stands for. -/
inductive IsPart : List Char → Flags → Prop
  /-- A flag by its name. -/
  | name {f : String × Flags} (mem : f ∈ named) : IsPart f.1.toList f.2
  /-- Any bits by a numeral behind `0x`, which may have a plus sign in front. -/
  | numeral {sign digits : List Char} {a : Flags} (plus : sign = [] ∨ sign = ['+'])
      (value : Hex.IsNumeral digits a.bits.toNat) : IsPart ('0' :: 'x' :: (sign ++ digits)) a

/-- Parts with blanks around them and bars between them, which stand for the union of the parts' sets. -/
inductive IsJoined : List Char → Flags → Prop
  /-- One part. -/
  | one {s part : List Char} {a : Flags} (padded : Blank.IsPadded s part) (stands : IsPart part a) : IsJoined s a
  /-- A part, a bar and what follows. -/
  | more {s part t : List Char} {a b : Flags} (padded : Blank.IsPadded s part) (stands : IsPart part a)
      (rest : IsJoined t b) : IsJoined (s ++ '|' :: t) (a.union b)

/-- **A text spells a set of flags**: it is blank and the set empty, or it joins parts. -/
inductive Spells : List Char → Flags → Prop
  /-- Blanks spell the empty set. -/
  | blank {s : List Char} (blank : ∀ c ∈ s, Blank.isBlank c) : Spells s empty
  /-- Parts spell the union of their sets. -/
  | joined {s : List Char} {a : Flags} (joined : IsJoined s a) : Spells s a

/-- Whether a character may be in a part: it is neither blank nor a bar. -/
def isInner (c : Char) : Bool := !Blank.isBlank c && c != '|'

theorem not_isBlank_of_isInner {c : Char} (inner : isInner c) : ¬ Blank.isBlank c := by
  simp_all [isInner]

/-- Digits are neither blanks nor bars. -/
theorem isInner_of_digit? {c : Char} {d : ℕ} (value : Hex.digit? c = some d) : isInner c := by
  have range : 48 ≤ c.toNat ∧ c.toNat ≤ 102 := by
    have le (x y : Char) : x ≤ y ↔ x.toNat ≤ y.toNat := Iff.rfl
    simp only [Hex.digit?, le] at value
    split at value
    · rename_i bounds
      exact ⟨bounds.1, bounds.2.trans (by decide)⟩
    split at value
    · rename_i bounds
      exact ⟨le_trans (by decide) bounds.1, bounds.2⟩
    split at value
    · rename_i bounds
      exact ⟨le_trans (by decide) bounds.1, bounds.2.trans (by decide)⟩
    · cases value
  have inner : ∀ n < 103, 48 ≤ n → isInner (Char.ofNat n) := by decide
  rw [← Char.ofNat_toNat c]
  exact inner _ (Nat.lt_succ_of_le range.2) range.1

/-- Parts have neither blanks nor bars in them. -/
theorem IsPart.inner {part : List Char} (stands : IsPart part a) : ∀ c ∈ part, isInner c := by
  cases stands with
  | name mem =>
    have inner : ∀ f ∈ named, f.1.toList.all isInner := by decide
    exact List.all_eq_true.1 (inner _ mem)
  | @numeral sign digits _ plus value =>
    have sign : sign.all isInner := by
      rcases plus with rfl | rfl <;> decide
    intro c mem
    simp only [List.mem_cons, List.mem_append] at mem
    rcases mem with rfl | rfl | mem | mem
    · decide
    · decide
    · exact List.all_eq_true.1 sign c mem
    · obtain ⟨d, value⟩ := value.exists_digit? c mem
      exact isInner_of_digit? value

theorem IsPart.ne_nil {part : List Char} (stands : IsPart part a) : part ≠ [] := by
  cases stands with
  | name mem =>
    have inhabited : ∀ f ∈ named, f.1.toList ≠ [] := by decide
    exact inhabited _ mem
  | numeral => exact List.cons_ne_nil _ _

/-- **A numeral is read if its number fits into a word.** -/
theorem readNumeral?_plus {digits : List Char} :
    readNumeral? ('+' :: digits) = some a ↔ Hex.IsNumeral digits a.bits.toNat := by
  rw [← Hex.read?_eq_some_iff, readNumeral?]
  cases Hex.read? digits with
  | none => simp
  | some n =>
    simp only [Option.some.injEq, Option.ite_none_right_eq_some]
    constructor
    · rintro ⟨small, rfl⟩
      exact (UInt32.toNat_ofNat_of_lt' small).symm
    · rintro rfl
      exact ⟨a.bits.toNat_lt, by rw [UInt32.ofNat_toNat]⟩

/-- A plus sign makes no difference, but there is only one. -/
theorem readNumeral?_of_unsigned {s : List Char} (unsigned : ∀ rest, s ≠ '+' :: rest) :
    readNumeral? s = readNumeral? ('+' :: s) := by
  unfold readNumeral?
  split
  · exact absurd rfl (unsigned _)
  · rfl

theorem readNumeral?_eq_some_iff {s : List Char} :
    readNumeral? s = some a ↔
      ∃ sign digits, (sign = [] ∨ sign = ['+']) ∧ Hex.IsNumeral digits a.bits.toNat ∧ s = sign ++ digits := by
  constructor
  · intro read
    by_cases signed : ∃ rest, s = '+' :: rest
    · obtain ⟨rest, rfl⟩ := signed
      exact ⟨['+'], rest, .inr rfl, readNumeral?_plus.1 read, rfl⟩
    · rw [readNumeral?_of_unsigned (not_exists.1 signed)] at read
      exact ⟨[], s, .inl rfl, readNumeral?_plus.1 read, rfl⟩
  · rintro ⟨sign, digits, rfl | rfl, numeral, rfl⟩
    · have unsigned : ∀ rest, s ≠ '+' :: rest := by
        rintro rest rfl
        obtain ⟨d, value⟩ := numeral.exists_digit? '+' List.mem_cons_self
        cases value
      rw [readNumeral?_of_unsigned unsigned]
      exact readNumeral?_plus.2 numeral
    · exact readNumeral?_plus.2 numeral

/-- **A part is read as the set it stands for**, and nothing else is read. -/
theorem readPart?_eq_some_iff {part : List Char} : readPart? part = some a ↔ IsPart part a := by
  constructor
  · intro read
    unfold readPart? at read
    split at read
    · obtain ⟨sign, digits, plus, numeral, rfl⟩ := readNumeral?_eq_some_iff.1 read
      exact .numeral plus numeral
    · obtain ⟨f, found, rfl⟩ := Option.map_eq_some_iff.1 read
      have same := List.find?_some found
      rw [← of_decide_eq_true same]
      exact .name (List.mem_of_find?_eq_some found)
  · intro stands
    cases stands with
    | name mem =>
      have read : ∀ f ∈ named, readPart? f.1.toList = some f.2 := by decide
      exact read _ mem
    | numeral plus value => exact readNumeral?_eq_some_iff.2 ⟨_, _, plus, value, rfl⟩

theorem IsPart.trim_eq {s part : List Char} (stands : IsPart part a) (padded : Blank.IsPadded s part) :
    Blank.trim s = part :=
  padded.trim_eq fun c mem => not_isBlank_of_isInner (stands.inner c mem)

/-- No bar is in a part or in the blanks around it. -/
theorem IsPart.not_mem {s part : List Char} (stands : IsPart part a) (padded : Blank.IsPadded s part) : '|' ∉ s := by
  obtain ⟨before, after, blank, blank', rfl⟩ := padded
  simp only [List.mem_append, not_or]
  exact ⟨⟨fun mem => absurd (blank _ mem) (by decide), fun mem => absurd (stands.inner _ mem) (by decide)⟩,
    fun mem => absurd (blank' _ mem) (by decide)⟩

/-- Joined parts are read one by one. -/
theorem readParts?_splitOn {s : List Char} (joined : IsJoined s a) : readParts? (s.splitOn '|') = some a := by
  induction joined with
  | one padded stands =>
    rw [List.splitOn_eq_singleton (stands.not_mem padded), readParts?, stands.trim_eq padded,
      readPart?_eq_some_iff.2 stands, readParts?]
    exact congrArg some (union_empty _)
  | more padded stands rest ih =>
    rw [List.splitOn_append_cons_self_of_not_mem (stands.not_mem padded), readParts?, stands.trim_eq padded,
      readPart?_eq_some_iff.2 stands, ih]

/-- What is read part by part is joined. -/
theorem isJoined_of_readParts? {parts : List (List Char)} (inhabited : parts ≠ [])
    (read : readParts? parts = some a) : IsJoined (['|'].intercalate parts) a := by
  induction parts generalizing a with
  | nil => exact absurd rfl inhabited
  | cons part rest ih =>
    rw [readParts?] at read
    split at read
    · rename_i first others readFirst readOthers
      cases read
      have stands := readPart?_eq_some_iff.1 readFirst
      have padded := Blank.isPadded_trim part
      cases rest with
      | nil =>
        cases readOthers
        rw [List.intercalate_singleton, union_empty]
        exact .one padded stands
      | cons next rest =>
        rw [List.intercalate_cons_cons, List.append_assoc]
        exact .more padded stands (ih (List.cons_ne_nil _ _) readOthers)
    · cases read

/-- Joined parts are not blank. -/
theorem IsJoined.exists_not_blank {s : List Char} (joined : IsJoined s a) : ∃ c ∈ s, ¬ Blank.isBlank c := by
  cases joined with
  | one padded stands =>
    obtain ⟨c, mem⟩ := List.exists_mem_of_ne_nil _ stands.ne_nil
    exact ⟨c, padded.mem mem, not_isBlank_of_isInner (stands.inner c mem)⟩
  | more padded stands rest =>
    obtain ⟨c, mem⟩ := List.exists_mem_of_ne_nil _ stands.ne_nil
    exact ⟨c, List.mem_append_left _ (padded.mem mem), not_isBlank_of_isInner (stands.inner c mem)⟩

/-- **The reader accepts the spellings of sets**, as the sets they spell. -/
theorem read?_eq_some_iff {s : String} : read? s = some a ↔ Spells s.toList a := by
  simp only [read?, List.isEmpty_iff, Blank.trim_eq_nil_iff]
  split
  · rename_i blank
    constructor
    · rintro ⟨⟩
      exact .blank blank
    · rintro (_ | joined)
      · rfl
      · obtain ⟨c, mem, solid⟩ := joined.exists_not_blank
        exact absurd (blank c mem) solid
  · rename_i solid
    constructor
    · intro read
      have joined := isJoined_of_readParts? (List.splitOn_ne_nil _ _) read
      rw [List.intercalate_splitOn] at joined
      exact .joined joined
    · rintro (blank | joined)
      · exact absurd blank solid
      · exact readParts?_splitOn joined

/-! ### The spelling that is written -/

theorem IsJoined.indent {s before : List Char} (joined : IsJoined s a) (blank : ∀ c ∈ before, Blank.isBlank c) :
    IsJoined (before ++ s) a := by
  cases joined with
  | one padded stands => exact .one (padded.indent blank) stands
  | more padded stands rest =>
    rw [← List.append_assoc]
    exact .more (padded.indent blank) stands rest

/-- Parts are joined by a bar between blanks. -/
theorem isJoined_intercalate {parts : List (List Char)} {flags : List Flags}
    (spelled : List.Forall₂ IsPart parts flags) (inhabited : parts ≠ []) :
    IsJoined (" | ".toList.intercalate parts) (unite flags) := by
  induction spelled with
  | nil => exact absurd rfl inhabited
  | @cons part f parts flags stands rest ih =>
    cases rest with
    | nil =>
      rw [List.intercalate_singleton, unite_cons, unite_nil, union_empty]
      exact .one ⟨[], [], by simp, by simp, by simp⟩ stands
    | cons stands' rest =>
      -- of the blanks around the bar one is behind the part, the other in front of what follows
      have blank : ∀ c ∈ [' '], Blank.isBlank c := List.all_eq_true.1 (by decide)
      have padded : Blank.IsPadded (part ++ [' ']) part := ⟨[], [' '], by simp, blank, by simp⟩
      have := IsJoined.more padded stands ((ih (List.cons_ne_nil _ _)).indent blank)
      rw [List.intercalate_cons_cons]
      simpa using this

/-- The numeral behind the names, if a set has flags without names. -/
def numerals (a : Flags) : List String :=
  if a.unnamed.isEmpty then [] else ["0x" ++ String.ofList (Hex.write a.unnamed.bits.toNat)]

theorem parts_eq (a : Flags) : a.parts = a.names ++ a.numerals := rfl

/-- The sets that the parts of what is written stand for. -/
def pieces (a : Flags) : List Flags :=
  (named.filter fun f => a.contains f.2).map (·.2) ++ if a.unnamed.isEmpty then [] else [a.unnamed]

/-- Each part of what is written stands for its piece of the set. -/
theorem isPart_parts (a : Flags) : List.Forall₂ IsPart (a.parts.map String.toList) a.pieces := by
  rw [parts_eq, List.map_append]
  refine List.rel_append ?_ ?_
  · rw [names, List.map_map, List.forall₂_map_left_iff, List.forall₂_map_right_iff, List.forall₂_same]
    exact fun f mem => .name (List.mem_filter.1 mem).1
  · rw [numerals]
    split
    · exact .nil
    · have part : IsPart ('0' :: 'x' :: ([] ++ Hex.write a.unnamed.bits.toNat)) a.unnamed :=
        .numeral (.inl rfl) (Hex.isNumeral_write _)
      refine .cons ?_ .nil
      simpa using part

theorem unite_pieces (a : Flags) : unite a.pieces = a := by
  have rest : unite (if a.unnamed.isEmpty then [] else [a.unnamed]) = a.unnamed := by
    split
    · rename_i none
      exact (of_decide_eq_true none).symm
    · exact union_empty _
  rw [pieces, unite_append, rest, unite_named_union]

/-- **What is written for a set spells it.** -/
theorem spells_display (a : Flags) : Spells a.display.toList a := by
  rw [display, String.toList_intercalate]
  have spelled := isPart_parts a
  by_cases inhabited : a.parts.map String.toList = []
  · rw [inhabited] at spelled ⊢
    have none := List.forall₂_nil_left_iff.1 spelled
    have empty : a = empty := by rw [← unite_pieces a, none, unite_nil]
    rw [empty]
    exact .blank (by simp)
  · have joined := isJoined_intercalate spelled inhabited
    rw [unite_pieces] at joined
    exact .joined joined

/-- **What is written for a set is read as the set.** -/
theorem read?_display (a : Flags) : read? a.display = some a := read?_eq_some_iff.2 (spells_display a)

/-- Parts say what a set has without saying anything twice: each flag that has a name is there by its name, once if the
set has it and not at all otherwise, and whatever else is there is one numeral, of the bits of the set that no named
flag has, if there are any. -/
structure IsNormal (a : Flags) (parts : List String) : Prop where
  /-- Each named flag that the set has is written once by its name. -/
  once : ∀ f ∈ named, parts.count f.1 = if a.contains f.2 then 1 else 0
  /-- The other bits are written by one numeral. -/
  rest : ∃ others : Flags, (∀ i, others.has i = true ↔ a.has i = true ∧ ∀ f ∈ named, f.2.has i = false) ∧
    (others = empty ∧ parts.filter (· ∉ named.map (·.1)) = [] ∨
      others ≠ empty ∧ ∃ digits, Hex.IsNumeral digits others.bits.toNat ∧
        parts.filter (· ∉ named.map (·.1)) = ["0x" ++ String.ofList digits])

theorem nodup_names : (named.map (·.1)).Nodup := by decide

theorem mem_names_iff {f : String × Flags} (mem : f ∈ named) : f.1 ∈ a.names ↔ a.contains f.2 := by
  constructor
  · intro written
    obtain ⟨g, mem', same⟩ := List.mem_map.1 written
    obtain ⟨mem', held⟩ := List.mem_filter.1 mem'
    cases List.inj_on_of_nodup_map nodup_names mem' mem same
    exact held
  · exact fun held => List.mem_map.2 ⟨f, List.mem_filter.2 ⟨mem, held⟩, rfl⟩

/-- No numeral is a name. -/
theorem not_name_of_numeral : ∀ numeral ∈ a.numerals, numeral ∉ named.map (·.1) := by
  have letter : ∀ f ∈ named, f.1.toList.head? ≠ some '0' := by decide
  intro numeral mem name
  obtain ⟨f, mem', rfl⟩ := List.mem_map.1 name
  rw [numerals] at mem
  split at mem
  · cases mem
  · refine letter f mem' ?_
    rw [List.mem_singleton.1 mem, String.toList_append]
    rfl

/-- **What is written for a set says nothing twice.** -/
theorem isNormal_parts (a : Flags) : a.IsNormal a.parts := by
  refine ⟨fun f mem => ?_, a.unnamed, fun i => has_unnamed, ?_⟩
  · have nodup : a.names.Nodup := (List.filter_sublist.map _).nodup nodup_names
    have no_numeral : a.numerals.count f.1 = 0 :=
      List.count_eq_zero.2 fun mem' => not_name_of_numeral _ mem' (List.mem_map_of_mem mem)
    rw [parts_eq, List.count_append, nodup.count, no_numeral, Nat.add_zero]
    simp only [mem_names_iff mem]
  · have names : a.names.filter (· ∉ named.map (·.1)) = [] := by
      refine List.filter_eq_nil_iff.2 fun name mem => ?_
      have known : name ∈ named.map (·.1) := List.map_subset _ (List.filter_subset_self _) mem
      simpa using known
    have numerals : a.numerals.filter (· ∉ named.map (·.1)) = a.numerals :=
      List.filter_eq_self.2 fun numeral mem => by simpa using not_name_of_numeral numeral mem
    rw [parts_eq, List.filter_append, names, numerals, List.nil_append, Flags.numerals]
    by_cases rest : a.unnamed = empty
    · exact .inl ⟨rest, by simp [isEmpty, rest]⟩
    · exact .inr ⟨rest, _, Hex.isNumeral_write _, by simp [isEmpty, rest]⟩

end LazyHub.Power.Flags
