import LazyHub.Text.Blank
import LazyHub.Text.Hex
import Mathlib.Data.List.Forall2
import Mathlib.Data.List.TakeWhile
import Mathlib.Data.Nat.Digits.Defs
import Mathlib.Tactic.Ring

/-!
# Numerals and blanks

Which texts are hexadecimal numerals, and of which numbers (`Hex.IsNumeral`), said by the positions of the digits;
the reader accepts these and no others (`Hex.read?_eq_some_iff`), and what is written is one of them
(`Hex.isNumeral_write`).

A text is padded if there are blanks around it (`Blank.IsPadded`). Trimming finds what is padded, if that has no
blanks itself (`Blank.IsPadded.trim_eq`).
-/

namespace LazyHub.Text

namespace Hex

/-- A text is a numeral of a number: it has at least one digit and nothing but digits, and these are digits of the
number in base sixteen, the greatest first. Zeros may lead, and letters may be of either case. -/
def IsNumeral (s : List Char) (n : ℕ) : Prop :=
  s ≠ [] ∧ ∃ digits, List.Forall₂ (fun c d => digit? c = some d) s digits ∧ n = Nat.ofDigits 16 digits.reverse

variable {s : List Char} {n m : ℕ}

/-- Reading on shifts what was read by as many places as there are digits. -/
theorem readOn_eq_some_iff :
    readOn n s = some m ↔ ∃ digits, List.Forall₂ (fun c d => digit? c = some d) s digits ∧
      m = 16 ^ digits.length * n + Nat.ofDigits 16 digits.reverse := by
  induction s generalizing n with
  | nil => simp [readOn, eq_comm]
  | cons c rest ih =>
    have shift : ∀ (d : ℕ) (digits : List ℕ),
        16 ^ digits.length * (16 * n + d) + Nat.ofDigits 16 digits.reverse =
          16 ^ (d :: digits).length * n + Nat.ofDigits 16 (d :: digits).reverse := by
      intro d digits
      rw [List.reverse_cons, Nat.ofDigits_append, Nat.ofDigits_singleton, List.length_reverse, List.length_cons]
      ring
    rw [readOn]
    cases value : digit? c with
    | none => simp [List.forall₂_cons_left_iff, value]
    | some d =>
      simp only [ih, shift]
      constructor
      · rintro ⟨digits, read, eq⟩
        exact ⟨d :: digits, .cons value read, eq⟩
      · rintro ⟨_, _ | ⟨value', read⟩, eq⟩
        cases value.symm.trans value'
        exact ⟨_, read, eq⟩

/-- **The reader accepts the numerals**, as the numbers they are numerals of. -/
theorem read?_eq_some_iff : read? s = some n ↔ IsNumeral s n := by
  cases s with
  | nil => simp [read?, IsNumeral]
  | cons c rest => simp [read?, IsNumeral, readOn_eq_some_iff]

/-- A numeral has nothing but digits. -/
theorem IsNumeral.exists_digit? (numeral : IsNumeral s n) : ∀ c ∈ s, ∃ d, digit? c = some d := by
  obtain ⟨-, digits, read, -⟩ := numeral
  induction read with
  | nil => simp
  | cons value _ ih =>
    intro c mem
    rcases List.mem_cons.1 mem with rfl | mem
    · exact ⟨_, value⟩
    · exact ih c mem

theorem digit?_digitChar : ∀ d < 16, digit? d.digitChar = some d := by decide

/-- One more digit is one more place. -/
theorem IsNumeral.concat {c : Char} {d : ℕ} (numeral : IsNumeral s n) (value : digit? c = some d) :
    IsNumeral (s ++ [c]) (16 * n + d) := by
  obtain ⟨-, digits, read, rfl⟩ := numeral
  refine ⟨by simp, digits ++ [d], List.rel_append read (.cons value .nil), ?_⟩
  rw [List.reverse_concat, Nat.ofDigits_cons]
  omega

/-- **What is written for a number is a numeral of it.** -/
theorem isNumeral_write (n : ℕ) : IsNumeral (write n) n := by
  induction n using Nat.strong_induction_on with
  | _ n ih =>
    rw [write, Nat.toDigits_eq_if (by decide)]
    split
    · rename_i small
      exact ⟨by simp, [n], .cons (digit?_digitChar n small) .nil, by simp⟩
    · have last : digit? (n % 16).digitChar = some (n % 16) := digit?_digitChar _ (Nat.mod_lt n (by decide))
      have numeral := (ih (n / 16) (by omega)).concat last
      rwa [Nat.div_add_mod] at numeral

end Hex

namespace Blank

/-- A text with blanks around it. -/
def IsPadded (s text : List Char) : Prop :=
  ∃ before after, (∀ c ∈ before, isBlank c) ∧ (∀ c ∈ after, isBlank c) ∧ s = before ++ text ++ after

variable {s text before : List Char}

/-- Trimming takes off nothing but blanks. -/
theorem isPadded_trim (s : List Char) : IsPadded s (trim s) := by
  refine ⟨s.takeWhile isBlank, ((trimStart s).reverse.takeWhile isBlank).reverse,
    fun c mem => List.mem_takeWhile_imp mem, fun c mem => List.mem_takeWhile_imp (List.mem_reverse.1 mem), ?_⟩
  have start : trim s ++ ((trimStart s).reverse.takeWhile isBlank).reverse = trimStart s := by
    rw [trim, trimEnd, trimStart, ← List.reverse_append, List.takeWhile_append_dropWhile, List.reverse_reverse]
  rw [List.append_assoc, start]
  exact List.takeWhile_append_dropWhile.symm

theorem trimStart_of_solid (solid : ∀ c ∈ text, ¬ isBlank c) : trimStart text = text := by
  cases text with
  | nil => rfl
  | cons c rest => exact List.dropWhile_cons_of_neg (solid c List.mem_cons_self)

/-- **Trimming finds what is padded**, if that has no blanks itself. -/
theorem IsPadded.trim_eq (padded : IsPadded s text) (solid : ∀ c ∈ text, ¬ isBlank c) : trim s = text := by
  obtain ⟨before, after, blank, blank', rfl⟩ := padded
  cases text with
  | nil =>
    have none : trimStart (before ++ [] ++ after) = [] := by
      refine List.dropWhile_eq_nil_iff.2 fun c mem => ?_
      rw [List.append_nil, List.mem_append] at mem
      exact mem.elim (blank c) (blank' c)
    rw [trim, none]
    rfl
  | cons c rest =>
    -- the blanks in front end where the text starts, and seen from behind those at the end do
    have start : trimStart (before ++ (c :: rest) ++ after) = c :: rest ++ after := by
      rw [List.append_assoc]
      exact (List.dropWhile_append_of_pos blank).trans (List.dropWhile_cons_of_neg (solid c List.mem_cons_self))
    have stop : trimStart (after.reverse ++ (c :: rest).reverse) = (c :: rest).reverse := by
      refine (List.dropWhile_append_of_pos fun c mem => blank' c (List.mem_reverse.1 mem)).trans ?_
      exact trimStart_of_solid fun c mem => solid c (List.mem_reverse.1 mem)
    rw [trim, start, trimEnd, List.reverse_append, stop, List.reverse_reverse]

/-- Nothing is left of a text without the blanks at its ends if it has nothing else. -/
theorem trim_eq_nil_iff : trim s = [] ↔ ∀ c ∈ s, isBlank c := by
  constructor
  · intro none
    obtain ⟨before, after, blank, blank', eq⟩ := isPadded_trim s
    rw [none, List.append_nil] at eq
    rw [eq]
    exact fun c mem => (List.mem_append.1 mem).elim (blank c) (blank' c)
  · exact fun blank => IsPadded.trim_eq ⟨s, [], blank, by simp, by simp⟩ (by simp)

/-- More blanks in front make no difference. -/
theorem IsPadded.indent (padded : IsPadded s text) (blank : ∀ c ∈ before, isBlank c) :
    IsPadded (before ++ s) text := by
  obtain ⟨before', after, blank', blank'', rfl⟩ := padded
  refine ⟨before ++ before', after, fun c mem => (List.mem_append.1 mem).elim (blank c) (blank' c), blank'', ?_⟩
  simp only [List.append_assoc]

/-- Whatever is around a text, the text is in it. -/
theorem IsPadded.mem {c : Char} (padded : IsPadded s text) (mem : c ∈ text) : c ∈ s := by
  obtain ⟨before, after, -, -, rfl⟩ := padded
  exact List.mem_append_left _ (List.mem_append_right _ mem)

end Blank

end LazyHub.Text
