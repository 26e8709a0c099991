import Mathlib.Tactic.Ring
import ProbeCycle.Proofs.Rounding

namespace ProbeCycle

namespace Binary64

variable {num den num' den' c : Nat}

theorem divideHalfEven_scale (num den : Nat) (hc : 0 < c) :
    divideHalfEven (num * c) (den * c) = divideHalfEven num den := by
  have hdiv : num * c / (den * c) = num / den := Nat.mul_div_mul_right num den hc
  have hmod : num * c % (den * c) = num % den * c := Nat.mul_mod_mul_right c num den
  have hrest : 2 * (num % den * c) = 2 * (num % den) * c := (Nat.mul_assoc ..).symm
  unfold divideHalfEven
  simp only [hdiv, hmod, hrest, Nat.mul_lt_mul_right hc, beq_iff_eq,
    Nat.mul_right_cancel_iff hc, Bool.or_eq_true, Bool.and_eq_true, decide_eq_true_eq]

theorem nearestUnits_scale (num den : Nat) (hc : 0 < c) :
    nearestUnits (num * c) (den * c) = nearestUnits num den := by
  have hdiv : num * c / (den * c) = num / den := Nat.mul_div_mul_right num den hc
  have hgap : den * c * spacing (num / den) = den * spacing (num / den) * c :=
    Nat.mul_right_comm ..
  unfold nearestUnits
  dsimp only
  rw [hdiv, hgap, divideHalfEven_scale _ _ hc]

/-- Equal quotients have the same nearest magnitude. -/
theorem nearestUnits_congr (hden : 0 < den) (hden' : 0 < den') (h : num * den' = num' * den) :
    nearestUnits num den = nearestUnits num' den' := by
  rw [← nearestUnits_scale num den hden', ← nearestUnits_scale num' den' hden, h,
    Nat.mul_comm den den']

theorem ofRatio_congr {negative : Bool} (hden : 0 < den) (hden' : 0 < den')
    (h : num * den' = num' * den) : ofRatio negative num den = ofRatio negative num' den' := by
  unfold ofRatio
  simp only [nearestUnits_congr hden hden' h]

/-- A quotient below one half rounds to zero. -/
theorem nearestUnits_eq_zero (h : 2 * num < den) : nearestUnits num den = 0 := by
  have hdiv : num / den = 0 := Nat.div_eq_of_lt (by omega)
  have hmod : num % den = num := Nat.mod_eq_of_lt (by omega)
  have hgap : spacing 0 = 1 := rfl
  unfold nearestUnits divideHalfEven
  simp [hdiv, hmod, hgap, h]

/-- Rounding does not go below a power of two, so it keeps at least half of a magnitude. -/
theorem le_nearestUnits {n limit : Nat} (h : 2 * limit ≤ n) : limit ≤ nearestUnits n 1 := by
  rcases Nat.eq_zero_or_pos n with rfl | hn
  · omega
  · have hpow : Nat.pow 2 (n / 1).log2 ≤ nearestUnits n 1 :=
      two_pow_log2_le_nearestUnits (by rw [Nat.div_one]; exact hn.ne')
    have hlt : n < Nat.pow 2 (n.log2 + 1) := Nat.lt_log2_self
    have hdouble : Nat.pow 2 (n.log2 + 1) = Nat.pow 2 n.log2 * 2 := rfl
    rw [Nat.div_one] at hpow
    omega

end Binary64

namespace Decimal

open Binary64 (ofRatio unitsPerOne unitLimit nearestUnits)

/-- The quotient that a numeral spells, in units. -/
def numerator (d : Decimal) : Nat := d.digits * 10 ^ d.exponent.toNat * unitsPerOne

def denominator (d : Decimal) : Nat := 10 ^ (-d.exponent).toNat

theorem denominator_pos (d : Decimal) : 0 < d.denominator := Nat.pow_pos (by decide)

/-- A number with an exponent beyond 400 is not finite. -/
private theorem limit_le_nearestUnits {digits k : Nat} (hd : digits ≠ 0) (hk : 400 < k) :
    unitLimit ≤ nearestUnits (digits * 10 ^ k * unitsPerOne) 1 := by
  apply Binary64.le_nearestUnits
  obtain ⟨e, he, hbound⟩ : ∃ e, e ≤ 401 ∧ 2 * unitLimit ≤ Nat.pow 10 e * unitsPerOne :=
    ⟨401, by decide, by decide +kernel⟩
  have hpow : Nat.pow 10 e ≤ 10 ^ k := Nat.pow_le_pow_right (by decide) (by omega)
  calc
    2 * unitLimit ≤ Nat.pow 10 e * unitsPerOne := hbound
    _ ≤ 10 ^ k * unitsPerOne := Nat.mul_le_mul_right _ hpow
    _ ≤ digits * 10 ^ k * unitsPerOne :=
      Nat.mul_le_mul_right _ (Nat.le_mul_of_pos_left _ (Nat.pos_of_ne_zero hd))

/-- A number whose exponent is that far below its digits is less than half a unit. -/
private theorem nearestUnits_small {digits k : Nat} (hk : digits.log2 + 400 < k) :
    nearestUnits (digits * unitsPerOne) (10 ^ (k + 1)) = 0 := by
  apply Binary64.nearestUnits_eq_zero
  have hdigits : digits < 2 ^ (digits.log2 + 1) := Nat.lt_log2_self
  have hpow : (2 ^ 3) ^ (k + 1) ≤ 10 ^ (k + 1) := Nat.pow_le_pow_left (by decide) _
  obtain ⟨e, he, hunits⟩ : ∃ e, e ≤ 1074 ∧ unitsPerOne = Nat.pow 2 e :=
    ⟨1074, by decide, by decide +kernel⟩
  calc
    2 * (digits * unitsPerOne) < 2 * (2 ^ (digits.log2 + 1) * unitsPerOne) :=
      Nat.mul_lt_mul_of_pos_left
        (Nat.mul_lt_mul_of_pos_right hdigits Binary64.unitsPerOne_pos) (by decide)
    _ = 2 ^ (digits.log2 + 1 + e + 1) := by
      rw [hunits, Nat.pow_eq, ← Nat.pow_add, ← Nat.pow_succ']
    _ ≤ 2 ^ (3 * (k + 1)) := Nat.pow_le_pow_right (by decide) (by omega)
    _ = (2 ^ 3) ^ (k + 1) := Nat.pow_mul ..
    _ ≤ 10 ^ (k + 1) := hpow

/-- The guards of `units` do not show in the number. -/
theorem units_or_limit (d : Decimal) :
    d.units = nearestUnits d.numerator d.denominator ∨
      unitLimit ≤ d.units ∧ unitLimit ≤ nearestUnits d.numerator d.denominator := by
  obtain ⟨digits, exponent⟩ := d
  unfold units numerator denominator
  by_cases hd : digits = 0
  · left
    subst hd
    have hpos : 2 * 0 < 10 ^ (-exponent).toNat := Nat.pow_pos (by decide)
    simpa using (Binary64.nearestUnits_eq_zero hpos).symm
  · rw [if_neg hd]
    cases exponent with
    | ofNat k =>
      have hneg : (-Int.ofNat k).toNat = 0 := by simp
      have hpos : (Int.ofNat k).toNat = k := rfl
      dsimp only
      rw [hneg, hpos]
      split
      · rename_i hk
        exact Or.inr ⟨Nat.le_refl _, limit_le_nearestUnits hd hk⟩
      · exact Or.inl rfl
    | negSucc k =>
      have hneg : (-Int.negSucc k).toNat = k + 1 := rfl
      have hpos : (Int.negSucc k).toNat = 0 := rfl
      dsimp only
      rw [hneg, hpos, Nat.pow_zero, Nat.mul_one]
      split
      · rename_i hk
        exact Or.inl (nearestUnits_small hk).symm
      · exact Or.inl rfl

theorem toBinary64_eq_ofRatio (negative : Bool) (d : Decimal) :
    d.toBinary64 negative = ofRatio negative d.numerator d.denominator := by
  unfold toBinary64 ofRatio
  rcases units_or_limit d with h | ⟨h, h'⟩
  · simp only [h]
  · rw [dif_neg (Nat.not_lt.2 h), dif_neg (Nat.not_lt.2 h')]

/-- Zeros at the end count as much as the exponent that they stand for. -/
theorem toBinary64_shift (negative : Bool) (digits k : Nat) (exponent : Int) :
    (mk (digits * 10 ^ k) exponent).toBinary64 negative =
      (mk digits (exponent + k)).toBinary64 negative := by
  rw [toBinary64_eq_ofRatio, toBinary64_eq_ofRatio]
  apply Binary64.ofRatio_congr (denominator_pos _) (denominator_pos _)
  have hpow : 10 ^ k * 10 ^ exponent.toNat * 10 ^ (-(exponent + k)).toNat =
      10 ^ (exponent + k).toNat * 10 ^ (-exponent).toNat := by
    rw [← Nat.pow_add, ← Nat.pow_add, ← Nat.pow_add]
    congr 1
    omega
  simp only [numerator, denominator]
  calc
    digits * 10 ^ k * 10 ^ exponent.toNat * unitsPerOne * 10 ^ (-(exponent + k)).toNat =
        digits * unitsPerOne * (10 ^ k * 10 ^ exponent.toNat * 10 ^ (-(exponent + k)).toNat) := by
      ring
    _ = digits * unitsPerOne * (10 ^ (exponent + k).toNat * 10 ^ (-exponent).toNat) := by
      rw [hpow]
    _ = digits * 10 ^ (exponent + k).toNat * unitsPerOne * 10 ^ (-exponent).toNat := by ring

/-- The number of a numeral with no more digits than a magnitude has. -/
theorem toBinary64_of_units {d : Decimal} {units : Nat} (hd : d.units = units)
    (h : Binary64.Representable units) (negative : Bool) :
    d.toBinary64 negative = .finite negative units h := by
  subst hd
  rw [toBinary64, dif_pos h.1]

end Decimal

end ProbeCycle
