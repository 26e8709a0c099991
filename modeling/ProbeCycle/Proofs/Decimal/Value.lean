import Mathlib.Algebra.Order.Field.Basic
import Mathlib.Data.Rat.Cast.Order
import Mathlib.Tactic.FieldSimp
import Mathlib.Tactic.Linarith
import Mathlib.Tactic.NormNum
import ProbeCycle.Proofs.Rounding.Order

namespace ProbeCycle

namespace Decimal

open Binary64 (Representable unitLimit unitsPerOne nearestUnits spacing)

variable {d low high : Decimal} {units : Nat}

/-- The number of units that a numeral spells. -/
def inUnits (d : Decimal) : ℚ := d.numerator / d.denominator

theorem denominator_cast_pos (d : Decimal) : (0 : ℚ) < d.denominator :=
  Nat.cast_pos.2 d.denominator_pos

theorem inUnits_eq (d : Decimal) : d.inUnits = d.digits * 10 ^ d.exponent * unitsPerOne := by
  have hpow : (10 : ℚ) ^ d.exponent * 10 ^ (-d.exponent).toNat = 10 ^ d.exponent.toNat := by
    rw [← zpow_natCast, ← zpow_natCast, ← zpow_add₀ (by norm_num)]
    congr 1
    omega
  rw [inUnits, div_eq_iff (denominator_cast_pos d).ne', numerator, denominator]
  push_cast
  rw [← hpow]
  ring

theorem nearestUnits_le_of_inUnits (h : low.inUnits ≤ high.inUnits) :
    nearestUnits low.numerator low.denominator ≤ nearestUnits high.numerator high.denominator := by
  apply Binary64.nearestUnits_mono low.denominator_pos high.denominator_pos
  rw [inUnits, inUnits, div_le_div_iff₀ (denominator_cast_pos _) (denominator_cast_pos _)] at h
  exact_mod_cast h

theorem units_eq_iff (hu : units < unitLimit) :
    d.units = units ↔ nearestUnits d.numerator d.denominator = units := by
  rcases units_or_limit d with h | ⟨h, h'⟩
  · rw [h]
  · constructor <;> intro he <;> omega

/-- What reads back as a number is an interval. -/
theorem units_of_between (hu : units < unitLimit) (hlow : low.units = units)
    (hhigh : high.units = units) (h : low.inUnits ≤ d.inUnits) (h' : d.inUnits ≤ high.inUnits) :
    d.units = units := by
  rw [units_eq_iff hu] at *
  have := nearestUnits_le_of_inUnits h
  have := nearestUnits_le_of_inUnits h'
  omega

/-- The interval reaches half a gap from the number, down and up. -/
theorem units_of_near (hu : Representable units)
    (hlow : 2 * (units - d.inUnits) < spacing (units - 1))
    (hhigh : 2 * (d.inUnits - units) < spacing units) : d.units = units := by
  rw [units_eq_iff hu.1]
  have hpos := denominator_cast_pos d
  rcases Nat.lt_or_ge d.numerator (units * d.denominator) with hbelow | habove
  · apply Binary64.nearestUnits_of_below hu.2 d.denominator_pos hbelow
    rw [inUnits, sub_div' hpos.ne', ← mul_div_assoc, div_lt_iff₀ hpos] at hlow
    have hnear : (2 * (units * d.denominator) : ℚ) <
        2 * d.numerator + d.denominator * spacing (units - 1) := by
      linarith
    exact_mod_cast hnear
  · apply Binary64.nearestUnits_of_above hu.2 d.denominator_pos habove
    rw [inUnits, div_sub' hpos.ne', ← mul_div_assoc, div_lt_iff₀ hpos] at hhigh
    have hnear : (2 * d.numerator : ℚ) <
        2 * (units * d.denominator) + d.denominator * spacing units := by
      linarith
    exact_mod_cast hnear

theorem inUnits_mono {m n : Nat} (h : m ≤ n) (exponent : Int) :
    (mk m exponent).inUnits ≤ (mk n exponent).inUnits := by
  have hpow : (0 : ℚ) ≤ 10 ^ exponent := zpow_nonneg (by norm_num) _
  rw [inUnits_eq, inUnits_eq]
  exact mul_le_mul_of_nonneg_right (mul_le_mul_of_nonneg_right (Nat.cast_le.2 h) hpow)
    (Nat.cast_nonneg _)

/-- A numeral with a larger exponent is one on the finer grid too. -/
theorem inUnits_refine (digits k : Nat) (exponent : Int) :
    (mk digits (exponent + k)).inUnits = (mk (digits * 10 ^ k) exponent).inUnits := by
  rw [inUnits_eq, inUnits_eq]
  push_cast
  rw [zpow_add₀ (by norm_num), zpow_natCast]
  ring

/-- No numeral of so many digits lies between neighbours of as many. -/
theorem outside_neighbours {m count : Nat} {exponent : Int} (hm : 10 ^ count ≤ m)
    (hd : d.digits < 10 ^ (count + 1)) :
    d.inUnits ≤ (mk m exponent).inUnits ∨ (mk (m + 1) exponent).inUnits ≤ d.inUnits := by
  obtain ⟨digits, e⟩ := d
  rcases Int.lt_or_le e exponent with hlt | hle
  · -- With a smaller exponent the digits do not reach the lower neighbour.
    left
    obtain ⟨k, rfl⟩ := Int.le.dest (Int.add_one_le_of_lt hlt)
    have hexponent : e + 1 + k = e + (k + 1 : Nat) := by omega
    have hdigits : digits ≤ m * 10 ^ (k + 1) :=
      calc
        digits ≤ 10 ^ (count + 1) := Nat.le_of_lt hd
        _ = 10 ^ count * 10 ^ 1 := Nat.pow_succ ..
        _ ≤ m * 10 ^ (k + 1) :=
          Nat.mul_le_mul hm (Nat.pow_le_pow_right (by decide) (Nat.le_add_left 1 k))
    rw [hexponent, inUnits_refine]
    exact inUnits_mono hdigits e
  · -- On the grid of the neighbours there is nothing between them.
    obtain ⟨k, rfl⟩ := Int.le.dest hle
    rw [inUnits_refine]
    rcases Nat.lt_or_ge m (digits * 10 ^ k) with hgt | hge
    · exact Or.inr (inUnits_mono hgt exponent)
    · exact Or.inl (inUnits_mono hge exponent)

end Decimal

end ProbeCycle
