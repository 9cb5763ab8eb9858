import LazyHub.Power.Battery
import Mathlib.Algebra.Order.Round
import Mathlib.Data.Rat.Floor
import Mathlib.Tactic.Linarith
import Mathlib.Tactic.Positivity
import Mathlib.Tactic.Ring

/-!
# The charge of the batteries, exactly

A share of a whole is rounded to the nearest percent with halves upwards (`IsRounded`). There is one such
number (`IsRounded.unique`), it grows with the share and shrinks with the whole, and two divisions that
truncate find it (`isRounded_halves`).

The charge is computed with words of 64 bits. `BatteryRecord.percent?` makes the same computation step by step,
and yields nothing where a step overflows or divides by zero. `BatteryRecord.charge_is_rounded_share` says that this
never happens, and what the charge is for every pair of capacities.
-/

namespace LazyHub.Power

/-! ### Rounding -/

/-- A number is the quotient of two others, rounded to the nearest with halves upwards. -/
def IsRounded (p n d : ℤ) : Prop := 2 * p * d ≤ 2 * n + d ∧ 2 * n + d < 2 * (p + 1) * d

section Rounding

variable {p q n m d e : ℤ}

/-- More of the same whole is rounded to no less. -/
theorem IsRounded.le_of_le (hp : IsRounded p n d) (hq : IsRounded q m d) (le : n ≤ m) (pos : 0 < d) : p ≤ q := by
  have above : 2 * p * d < 2 * (q + 1) * d := by
    calc 2 * p * d ≤ 2 * n + d := hp.1
      _ ≤ 2 * m + d := by omega
      _ < 2 * (q + 1) * d := hq.2
  have := lt_of_mul_lt_mul_right above pos.le
  omega

/-- A quotient is rounded to one number. -/
theorem IsRounded.unique (hp : IsRounded p n d) (hq : IsRounded q n d) (pos : 0 < d) : p = q :=
  le_antisymm (hp.le_of_le hq le_rfl pos) (hq.le_of_le hp le_rfl pos)

/-- As much of a larger whole is rounded to no more. -/
theorem IsRounded.le_of_whole_le (hp : IsRounded p n d) (hq : IsRounded q n e) (nonneg : 0 ≤ p) (pos : 0 < d)
    (le : d ≤ e) : q ≤ p := by
  rcases le_or_gt q 0 with low | high
  · exact low.trans nonneg
  · have shrinks : (2 * q - 1) * d ≤ (2 * q - 1) * e := mul_le_mul_of_nonneg_left le (by omega)
    have above : 2 * q * d < 2 * (p + 1) * d := by
      calc 2 * q * d = (2 * q - 1) * d + d := by ring
        _ ≤ (2 * q - 1) * e + d := by omega
        _ = 2 * q * e - e + d := by ring
        _ ≤ 2 * n + d := by linarith [hq.1]
        _ < 2 * (p + 1) * d := hp.2
    have := lt_of_mul_lt_mul_right above pos.le
    omega

/-- A share that is no more than so many wholes is rounded to no more than so many. -/
theorem IsRounded.le_of_le_mul (hp : IsRounded p n d) (bound : ℤ) (le : n ≤ bound * d) (pos : 0 < d) : p ≤ bound := by
  have above : 2 * p * d < 2 * (bound + 1) * d := by
    calc 2 * p * d ≤ 2 * n + d := hp.1
      _ ≤ 2 * (bound * d) + d := by omega
      _ < 2 * (bound + 1) * d := by linarith
  have := lt_of_mul_lt_mul_right above pos.le
  omega

/-- Rounding to the nearest with halves upwards is what it is for fractions. -/
theorem IsRounded.eq_round (hp : IsRounded p n d) (pos : 0 < d) : p = round ((n : ℚ) / d) := by
  have posQ : (0 : ℚ) < d := by exact_mod_cast pos
  obtain ⟨low, high⟩ := hp
  have lowQ : 2 * (p : ℚ) * d ≤ 2 * n + d := by exact_mod_cast low
  have highQ : 2 * (n : ℚ) + d < 2 * (p + 1) * d := by exact_mod_cast high
  have half : (n : ℚ) / d + 1 / 2 = (2 * n + d) / (2 * d) := by field_simp
  rw [round_eq, half]
  refine (Int.floor_eq_iff.2 ⟨?_, ?_⟩).symm
  · rw [le_div_iff₀ (by positivity)]
    linarith
  · rw [div_lt_iff₀ (by positivity)]
    linarith

/-- **Two divisions that truncate round to the nearest**: twice the share is divided, and half of what follows is
taken. -/
theorem isRounded_halves (n : ℕ) {d : ℕ} (pos : 0 < d) : IsRounded ((n * 2 / d + 1) / 2 : ℕ) n d := by
  -- the first quotient is as many wholes as fit into twice the share, the second half of the next number
  obtain ⟨quotient, eq⟩ : ∃ quotient, quotient = n * 2 / d := ⟨_, rfl⟩
  obtain ⟨half, eq'⟩ : ∃ half, half = (quotient + 1) / 2 := ⟨_, rfl⟩
  have fits : quotient * d ≤ n * 2 := eq ▸ Nat.div_mul_le_self ..
  have next : n * 2 < (quotient + 1) * d := by
    rw [eq, Nat.mul_comm (n * 2 / d + 1)]
    exact Nat.lt_mul_div_succ _ pos
  have low : 2 * half * d ≤ (quotient + 1) * d := Nat.mul_le_mul_right d (by omega)
  have high : (quotient + 2) * d ≤ 2 * (half + 1) * d := Nat.mul_le_mul_right d (by omega)
  rw [← eq, ← eq']
  refine ⟨?_, ?_⟩
  · have : 2 * half * d ≤ 2 * n + d := by linarith
    exact_mod_cast this
  · have : 2 * n + d < 2 * (half + 1) * d := by linarith
    exact_mod_cast this

end Rounding

namespace BatteryRecord

/-! ### The computation, step by step -/

/-- The product of two words, if it is a word. -/
def times? (a b : UInt64) : Option UInt64 := if a.toNat * b.toNat < UInt64.size then some (a * b) else none

/-- The sum of two words, if it is a word. -/
def plus? (a b : UInt64) : Option UInt64 := if a.toNat + b.toNat < UInt64.size then some (a + b) else none

/-- The quotient of two words, if the second is not zero. -/
def over? (a b : UInt64) : Option UInt64 := if b = 0 then none else some (a / b)

/-- The percentage, computed step by step. -/
def percent? (r : BatteryRecord) : Option UInt64 := do
  let product ← times? r.remaining.toUInt64 200
  let quotient ← over? product r.full.toUInt64
  let sum ← plus? quotient 1
  over? sum 2

/-- Both capacities are known, and the full one is one. -/
def IsKnown (r : BatteryRecord) : Prop := r.full ≠ 0 ∧ r.full ≠ unknownCapacity ∧ r.remaining ≠ unknownCapacity

instance (r : BatteryRecord) : Decidable r.IsKnown := inferInstanceAs (Decidable (_ ∧ _ ∧ _))

variable {r r' : BatteryRecord}

theorem IsKnown.pos (known : r.IsKnown) : 0 < r.full.toNat := by
  have : r.full.toNat ≠ 0 := fun zero => known.1 (UInt32.toNat_inj.1 zero)
  omega

/-- **No step of the computation fails**, and the steps are as they are for numbers of any size. -/
theorem percent?_of_full (full : r.full ≠ 0) :
    ∃ percent, r.percent? = some percent ∧
      percent = (r.remaining.toUInt64 * 200 / r.full.toUInt64 + 1) / 2 ∧
      percent.toNat = (100 * r.remaining.toNat * 2 / r.full.toNat + 1) / 2 := by
  have bound : r.remaining.toNat < 2 ^ 32 := r.remaining.toNat_lt
  have product : (r.remaining.toUInt64 * 200).toNat = 100 * r.remaining.toNat * 2 := by
    rw [UInt64.toNat_mul, UInt32.toNat_toUInt64]
    change r.remaining.toNat * 200 % 2 ^ 64 = _
    omega
  have quotient : (r.remaining.toUInt64 * 200 / r.full.toUInt64).toNat = 100 * r.remaining.toNat * 2 / r.full.toNat := by
    rw [UInt64.toNat_div, product, UInt32.toNat_toUInt64]
  have small : 100 * r.remaining.toNat * 2 / r.full.toNat ≤ 100 * r.remaining.toNat * 2 := Nat.div_le_self ..
  have sum : (r.remaining.toUInt64 * 200 / r.full.toUInt64 + 1).toNat = 100 * r.remaining.toNat * 2 / r.full.toNat + 1 := by
    rw [UInt64.toNat_add, quotient]
    change (_ + 1) % 2 ^ 64 = _
    omega
  have multiplies : times? r.remaining.toUInt64 200 = some (r.remaining.toUInt64 * 200) := by
    refine if_pos ?_
    rw [UInt32.toNat_toUInt64]
    change r.remaining.toNat * 200 < 2 ^ 64
    omega
  have divides : over? (r.remaining.toUInt64 * 200) r.full.toUInt64 = some (r.remaining.toUInt64 * 200 / r.full.toUInt64) := by
    refine if_neg fun zero => full (UInt32.toNat_inj.1 ?_)
    rw [← UInt32.toNat_toUInt64, zero]
    rfl
  have adds : plus? (r.remaining.toUInt64 * 200 / r.full.toUInt64) 1 =
      some (r.remaining.toUInt64 * 200 / r.full.toUInt64 + 1) := by
    refine if_pos ?_
    rw [quotient]
    change _ + 1 < 2 ^ 64
    omega
  refine ⟨_, ?_, rfl, ?_⟩
  · rw [percent?, multiplies, Option.bind_eq_bind, Option.bind_some, divides, Option.bind_some, adds, Option.bind_some]
    exact if_neg (by decide)
  · rw [UInt64.toNat_div, sum]
    rfl

/-! ### The charge -/

theorem charge_eq_none_of_unknown (unknown : ¬ r.IsKnown) : r.charge = none := by
  refine if_pos ?_
  simp only [IsKnown, not_and_or, not_not] at unknown
  rcases unknown with empty | unmeasured | unmeasured <;> simp [*]

theorem charge_of_known (known : r.IsKnown) :
    r.charge = if r.full < r.remaining then some 100
      else if (r.remaining.toUInt64 * 200 / r.full.toUInt64 + 1) / 2 < 256
        then some ((r.remaining.toUInt64 * 200 / r.full.toUInt64 + 1) / 2).toUInt8 else none :=
  if_neg (by simp [known.1, known.2.1, known.2.2])

theorem charge_of_beyond (known : r.IsKnown) (beyond : r.full < r.remaining) : r.charge = some 100 := by
  rw [charge_of_known known, if_pos beyond]

/-- **The charge is the rounded share** of the full capacity that is left, as long as no more is left than that. -/
theorem charge_of_within (known : r.IsKnown) (within : r.remaining ≤ r.full) :
    ∃ percent p, r.percent? = some percent ∧ percent < 256 ∧ r.charge = some p ∧ p.toNat = percent.toNat ∧
      p.toNat ≤ 100 ∧ IsRounded p.toNat (100 * r.remaining.toNat) r.full.toNat := by
  obtain ⟨percent, computed, rfl, eq⟩ := percent?_of_full known.1
  have rounded := isRounded_halves (100 * r.remaining.toNat) known.pos
  rw [← eq] at rounded
  have within' : r.remaining.toNat ≤ r.full.toNat := within
  have bound : ((r.remaining.toUInt64 * 200 / r.full.toUInt64 + 1) / 2).toNat ≤ 100 := by
    have := rounded.le_of_le_mul 100 (by omega) (by exact_mod_cast known.pos)
    exact_mod_cast this
  obtain ⟨percent, same⟩ : ∃ percent, percent = (r.remaining.toUInt64 * 200 / r.full.toUInt64 + 1) / 2 := ⟨_, rfl⟩
  rw [← same] at computed rounded bound
  have small : percent < 256 := UInt64.lt_iff_toNat_lt.2 (bound.trans_lt (by decide))
  have narrow : percent.toUInt8.toNat = percent.toNat := by
    rw [UInt64.toNat_toUInt8]
    omega
  refine ⟨percent, percent.toUInt8, computed, small, ?_, narrow, narrow ▸ bound, ?_⟩
  · rw [charge_of_known known, if_neg (UInt32.not_lt.2 within), ← same, if_pos small]
  · rw [narrow]
    exact_mod_cast rounded

theorem known_of_charge {p : UInt8} (charged : r.charge = some p) : r.IsKnown := by
  by_contra unknown
  rw [charge_eq_none_of_unknown unknown] at charged
  cases charged

theorem charge_le_hundred {p : UInt8} (charged : r.charge = some p) : p.toNat ≤ 100 := by
  have known := known_of_charge charged
  rcases UInt32.lt_or_le r.full r.remaining with beyond | within
  · cases charged.symm.trans (charge_of_beyond known beyond)
    decide
  · obtain ⟨percent, p', -, -, charged', -, bound, -⟩ := charge_of_within known within
    cases charged.symm.trans charged'
    exact bound

/-- A charge that is within the full capacity is the rounded share. -/
theorem isRounded_of_charge {p : UInt8} (charged : r.charge = some p) (within : r.remaining ≤ r.full) :
    IsRounded p.toNat (100 * r.remaining.toNat) r.full.toNat := by
  obtain ⟨percent, p', -, -, charged', -, -, rounded⟩ := charge_of_within (known_of_charge charged) within
  cases charged.symm.trans charged'
  exact rounded

/-- **The charge grows with what is left.** -/
theorem charge_le_of_remaining_le {p p' : UInt8} (charged : r.charge = some p) (charged' : r'.charge = some p')
    (same : r'.full = r.full) (le : r.remaining ≤ r'.remaining) : p ≤ p' := by
  rcases UInt32.lt_or_le r'.full r'.remaining with beyond | within
  · cases charged'.symm.trans (charge_of_beyond (known_of_charge charged') beyond)
    exact charge_le_hundred charged
  · have rounded := isRounded_of_charge charged (UInt32.le_trans le (same ▸ within))
    have rounded' := isRounded_of_charge charged' within
    rw [same] at rounded'
    have le' : r.remaining.toNat ≤ r'.remaining.toNat := le
    have := rounded.le_of_le rounded' (by omega) (by exact_mod_cast (known_of_charge charged).pos)
    exact_mod_cast this

/-- **The charge shrinks as the full capacity grows.** -/
theorem charge_le_of_full_le {p p' : UInt8} (charged : r.charge = some p) (charged' : r'.charge = some p')
    (same : r'.remaining = r.remaining) (le : r.full ≤ r'.full) : p' ≤ p := by
  rcases UInt32.lt_or_le r.full r.remaining with beyond | within
  · cases charged.symm.trans (charge_of_beyond (known_of_charge charged) beyond)
    exact charge_le_hundred charged'
  · have rounded := isRounded_of_charge charged within
    have rounded' := isRounded_of_charge charged' (same ▸ UInt32.le_trans within le)
    rw [same] at rounded'
    have := rounded.le_of_whole_le rounded' (by omega) (by exact_mod_cast (known_of_charge charged).pos)
      (by exact_mod_cast le)
    exact_mod_cast this

/-- **The charge is exact**, for every pair of capacities:

* it is unknown exactly if the full capacity is zero or a capacity is unknown;
* if more is left than the full capacity, it is a hundred;
* otherwise each step of the computation goes through, its result is a byte, and the charge is the one number
  that is nearest to the share in percent, with halves upwards, which is a hundred at most;
* while the capacities are known it never falls when more is left, nor rises when the full capacity does. -/
theorem charge_is_rounded_share (r : BatteryRecord) :
    (r.charge = none ↔ r.full = 0 ∨ r.full = unknownCapacity ∨ r.remaining = unknownCapacity) ∧
    (r.IsKnown → r.full < r.remaining → r.charge = some 100) ∧
    (r.IsKnown → r.remaining ≤ r.full →
      ∃ percent p, r.percent? = some percent ∧ percent < 256 ∧ r.charge = some p ∧ p.toNat = percent.toNat ∧ p ≤ 100 ∧
        (∀ q : ℤ, 2 * q * r.full.toNat ≤ 200 * r.remaining.toNat + r.full.toNat ∧
          200 * r.remaining.toNat + r.full.toNat < 2 * (q + 1) * r.full.toNat ↔ q = p.toNat) ∧
        (p.toNat : ℤ) = round (100 * r.remaining.toNat / r.full.toNat : ℚ)) ∧
    ∀ (r' : BatteryRecord) (p p' : UInt8), r.charge = some p → r'.charge = some p' →
      (r'.full = r.full → r.remaining ≤ r'.remaining → p ≤ p') ∧
      (r'.remaining = r.remaining → r.full ≤ r'.full → p' ≤ p) := by
  refine ⟨⟨fun unknown => ?_, fun unknown => ?_⟩, charge_of_beyond, fun known within => ?_, fun r' p p' charged charged' => ?_⟩
  · by_contra measured
    simp only [not_or] at measured
    have known : r.IsKnown := measured
    rcases UInt32.lt_or_le r.full r.remaining with beyond | within
    · cases unknown.symm.trans (charge_of_beyond known beyond)
    · obtain ⟨percent, p, -, -, charged, -⟩ := charge_of_within known within
      cases unknown.symm.trans charged
  · refine charge_eq_none_of_unknown fun known => ?_
    rcases unknown with empty | unmeasured | unmeasured
    · exact known.1 empty
    · exact known.2.1 unmeasured
    · exact known.2.2 unmeasured
  · obtain ⟨percent, p, computed, small, charged, same, bound, rounded⟩ := charge_of_within known within
    have pos : (0 : ℤ) < r.full.toNat := by exact_mod_cast known.pos
    have double : ∀ n : ℤ, 2 * (100 * n) = 200 * n := fun n => by ring
    have nearest : (p.toNat : ℤ) = round (100 * r.remaining.toNat / r.full.toNat : ℚ) := by
      simpa using rounded.eq_round pos
    refine ⟨percent, p, computed, small, charged, same, bound, fun q => ?_, nearest⟩
    rw [← double]
    refine ⟨fun (rounded' : IsRounded q _ _) => rounded'.unique rounded pos, ?_⟩
    rintro rfl
    exact rounded
  · exact ⟨charge_le_of_remaining_le charged charged', charge_le_of_full_le charged charged'⟩

/-- Two thirds are nearer to 67 percent than to 66. -/
theorem two_thirds_charge :
    (⟨1, .empty, 3, 2⟩ : BatteryRecord).IsKnown ∧ (⟨1, .empty, 3, 2⟩ : BatteryRecord).charge = some 67 ∧
      (67 : ℤ) = round (100 * 2 / 3 : ℚ) := by
  have known : (⟨1, .empty, 3, 2⟩ : BatteryRecord).IsKnown := by decide
  have charged : (⟨1, .empty, 3, 2⟩ : BatteryRecord).charge = some 67 := by decide
  obtain ⟨-, -, exact, -⟩ := charge_is_rounded_share ⟨1, .empty, 3, 2⟩
  obtain ⟨percent, p, -, -, charged', -, -, -, rounded⟩ := exact known (by decide)
  cases charged.symm.trans charged'
  exact ⟨known, charged, by simpa using rounded⟩

end BatteryRecord

end LazyHub.Power
