import ProbeCycle.Proofs.Setting

namespace ProbeCycle.Binary64

variable {x y l u : Binary64} {n num den : Nat}

theorem divideHalfEven_error (num den : Nat) :
    2 * (den * divideHalfEven num den) ≤ 2 * num + den := by
  have hdiv : den * (num / den) + num % den = num := Nat.div_add_mod num den
  unfold divideHalfEven
  dsimp only
  split
  · omega
  · rename_i h
    have hrest : ¬ 2 * (num % den) < den := by
      intro hlt
      simp [hlt] at h
    rw [Nat.mul_add, Nat.mul_one]
    omega

theorem le_divideHalfEven_error (num : Nat) (hden : 0 < den) :
    2 * num ≤ 2 * (den * divideHalfEven num den) + den := by
  have hdiv : den * (num / den) + num % den = num := Nat.div_add_mod num den
  have hrest : num % den < den := Nat.mod_lt num hden
  unfold divideHalfEven
  dsimp only
  split
  · rename_i h
    simp only [Bool.or_eq_true, Bool.and_eq_true, decide_eq_true_eq, beq_iff_eq] at h
    omega
  · rw [Nat.mul_add, Nat.mul_one]
    omega

theorem nearestUnits_error (num den : Nat) :
    2 * (den * nearestUnits num den) ≤ 2 * num + den * spacing (num / den) := by
  have h := divideHalfEven_error num (den * spacing (num / den))
  unfold nearestUnits
  dsimp only
  rwa [Nat.mul_comm (divideHalfEven _ _), ← Nat.mul_assoc den]

theorem spacing_pos (n : Nat) : 0 < spacing n := Nat.pow_pos (by decide)

theorem le_nearestUnits_error (num : Nat) (hden : 0 < den) :
    2 * num ≤ 2 * (den * nearestUnits num den) + den * spacing (num / den) := by
  have h := le_divideHalfEven_error num (Nat.mul_pos hden (spacing_pos (num / den)))
  unfold nearestUnits
  dsimp only
  rwa [Nat.mul_comm (divideHalfEven _ _), ← Nat.mul_assoc den]

/-- A magnitude with no more than the significant bits is its own rounding. -/
theorem nearestUnits_exact (hd : 0 < den) (h : spacing n ∣ n) :
    nearestUnits (n * den) den = n := by
  unfold nearestUnits
  dsimp only
  rw [Nat.mul_div_cancel n hd]
  obtain ⟨q, hq⟩ := h
  have hnum : n * den = den * spacing n * q := by
    rw [Nat.mul_assoc, ← hq, Nat.mul_comm]
  have hpos : 0 < den * spacing n := Nat.mul_pos hd (spacing_pos n)
  have hwhole : divideHalfEven (n * den) (den * spacing n) = q := by
    unfold divideHalfEven
    rw [hnum]
    simp [Nat.mul_div_cancel_left q hpos, hpos]
  rw [hwhole, Nat.mul_comm, ← hq]

theorem spacing_dvd_spacing {m : Nat} (h : m ≤ n) : spacing m ∣ spacing n := by
  apply Nat.pow_dvd_pow
  by_cases hm : m = 0
  · simp [hm]
  · have hpow : 2 ^ m.log2 ≤ n := Nat.le_trans (Nat.log2_self_le hm) h
    have hlog : m.log2 ≤ n.log2 := (Nat.le_log2 (by omega)).2 hpow
    omega

theorem divideHalfEven_le_of_le (h : num ≤ den * n) : divideHalfEven num den ≤ n := by
  have hdiv : den * (num / den) + num % den = num := Nat.div_add_mod num den
  unfold divideHalfEven
  dsimp only
  split
  · exact Nat.div_le_of_le_mul h
  · rename_i hround
    -- Only a quotient with a rest is rounded up, so it is below the bound.
    have hrest : 0 < num % den := by
      rcases Nat.eq_zero_or_pos den with rfl | hden
      · simp [Nat.le_zero.1 (Nat.zero_mul n ▸ h)] at hround
      · apply Nat.pos_of_ne_zero
        intro hzero
        simp [hzero, hden] at hround
    exact Nat.lt_of_mul_lt_mul_left (a := den) (by omega)

/-- A quotient that is not above a number is not rounded beyond it. -/
theorem nearestUnits_le (hd : spacing n ∣ n) (h : num ≤ den * n) : nearestUnits num den ≤ n := by
  have hle : num / den ≤ n := Nat.div_le_of_le_mul h
  obtain ⟨q, hq⟩ := Nat.dvd_trans (spacing_dvd_spacing hle) hd
  unfold nearestUnits
  dsimp only
  generalize spacing (num / den) = gap at hq ⊢
  subst hq
  rw [Nat.mul_comm gap q]
  apply Nat.mul_le_mul_right
  apply divideHalfEven_le_of_le
  rwa [Nat.mul_assoc]

theorem div_le_divideHalfEven (num den : Nat) : num / den ≤ divideHalfEven num den := by
  unfold divideHalfEven
  dsimp only
  split <;> omega

/-- Rounding does not go below a multiple of the gap that a quotient reaches. -/
theorem le_nearestUnits_of_dvd (hd : spacing (num / den) ∣ n) (h : n ≤ num / den) :
    n ≤ nearestUnits num den := by
  obtain ⟨q, rfl⟩ := hd
  unfold nearestUnits
  dsimp only
  rw [Nat.mul_comm]
  apply Nat.mul_le_mul_right
  calc
    q ≤ num / den / spacing (num / den) :=
      (Nat.le_div_iff_mul_le (spacing_pos _)).2 (by rwa [Nat.mul_comm])
    _ = num / (den * spacing (num / den)) := Nat.div_div_eq_div_mul ..
    _ ≤ divideHalfEven num (den * spacing (num / den)) := div_le_divideHalfEven ..

theorem spacing_dvd_two_pow_log2 (n : Nat) : spacing n ∣ Nat.pow 2 n.log2 :=
  Nat.pow_dvd_pow 2 (Nat.sub_le n.log2 52)

theorem two_pow_log2_le_nearestUnits (h : num / den ≠ 0) :
    Nat.pow 2 (num / den).log2 ≤ nearestUnits num den :=
  le_nearestUnits_of_dvd (spacing_dvd_two_pow_log2 _) (Nat.log2_self_le h)

theorem spacing_le {k : Nat} (h : n < Nat.pow 2 k) : spacing n ≤ Nat.pow 2 (k - 53) := by
  have hlog : n.log2 - 52 ≤ k - 53 := by
    by_cases hn : n = 0
    · simp [hn]
    · have hlt : n.log2 < k := (Nat.log2_lt hn).2 h
      omega
  exact Nat.pow_le_pow_right (by decide) hlog

/-- Below a power of two there is room for the gap between the numbers just below it. -/
theorem add_spacing_le {k : Nat} (hk : 53 ≤ k) (h : n < Nat.pow 2 k) (hd : spacing n ∣ n) :
    n + Nat.pow 2 (k - 53) ≤ Nat.pow 2 k := by
  by_cases hn : n < Nat.pow 2 (k - 1)
  · have hgap : Nat.pow 2 (k - 53) ≤ Nat.pow 2 (k - 1) :=
      Nat.pow_le_pow_right (by decide) (by omega)
    have hdouble : Nat.pow 2 (k - 1 + 1) = Nat.pow 2 (k - 1) * 2 := rfl
    rw [Nat.sub_add_cancel (by omega)] at hdouble
    omega
  · have hne : n ≠ 0 := by
      rintro rfl
      exact hn (Nat.two_pow_pos _)
    have hlow : ¬ n.log2 < k - 1 := fun hlt => hn ((Nat.log2_lt hne).1 hlt)
    have hhigh : n.log2 < k := (Nat.log2_lt hne).2 h
    have hlog : n.log2 - 52 = k - 53 := by omega
    have hs : spacing n = Nat.pow 2 (k - 53) := congrArg (Nat.pow 2) hlog
    have hroom : Nat.pow 2 (k - 53) ∣ Nat.pow 2 k - n :=
      Nat.dvd_sub (Nat.pow_dvd_pow 2 (by omega)) (hs ▸ hd)
    have hle := Nat.le_of_dvd (by omega) hroom
    omega

/-- The gap, in units, between the greatest finite numbers. -/
def topSpacing : Nat := Nat.pow 2 2045

private theorem limit_eq_pow :
    ∃ k, 53 ≤ k ∧ unitLimit = Nat.pow 2 k ∧ topSpacing = Nat.pow 2 (k - 53) :=
  ⟨2098, by decide, by decide +kernel, by decide +kernel⟩

theorem spacing_le_top (h : n < unitLimit) : spacing n ≤ topSpacing := by
  obtain ⟨k, _, hlimit, htop⟩ := limit_eq_pow
  rw [hlimit] at h
  rw [htop]
  exact spacing_le h

/-- There is a whole gap between the greatest finite number and the limit. -/
theorem add_top_le (h : Representable n) : n + topSpacing ≤ unitLimit := by
  obtain ⟨k, hk, hlimit, htop⟩ := limit_eq_pow
  obtain ⟨hlt, hd⟩ := h
  rw [hlimit] at hlt ⊢
  rw [htop]
  exact add_spacing_le hk hlt hd

theorem unitsPerOne_pos : 0 < unitsPerOne := by decide +kernel

/-- So small that rounding takes it away where the gaps are greatest. -/
def isModerate : Binary64 → Bool
  | .finite _ units _ => 2 * units < topSpacing
  | _ => false

/-- A quotient more than half a gap below the limit is not rounded up to it. -/
theorem isFinite_ofRatio {negative : Bool}
    (h : 2 * num + den * topSpacing < 2 * (den * unitLimit)) :
    (ofRatio negative num den).isFinite = true := by
  have hquotient : num / den < unitLimit := Nat.div_lt_of_lt_mul (by omega)
  have hgap : den * spacing (num / den) ≤ den * topSpacing :=
    Nat.mul_le_mul_left _ (spacing_le_top hquotient)
  have herror := nearestUnits_error num den
  have hlt : nearestUnits num den < unitLimit :=
    Nat.lt_of_mul_lt_mul_left (a := den) (by omega)
  simp [ofRatio, hlt, isFinite]

/-- A quotient at the limit or beyond is not rounded back from it. -/
theorem not_isFinite_ofRatio {negative : Bool} (hden : 0 < den) (h : den * unitLimit ≤ num) :
    (ofRatio negative num den).isFinite = false := by
  obtain ⟨k, _, hlimit, _⟩ := limit_eq_pow
  rw [hlimit, Nat.mul_comm] at h
  have hquotient : Nat.pow 2 k ≤ num / den := (Nat.le_div_iff_mul_le hden).2 h
  have hne : num / den ≠ 0 := Nat.ne_of_gt (Nat.lt_of_lt_of_le (Nat.two_pow_pos k) hquotient)
  have hpow : Nat.pow 2 k ≤ Nat.pow 2 (num / den).log2 :=
    Nat.pow_le_pow_right (by decide) ((Nat.le_log2 hne).2 hquotient)
  have hreached : unitLimit ≤ nearestUnits num den := by
    rw [hlimit]
    exact Nat.le_trans hpow (two_pow_log2_le_nearestUnits hne)
  rw [ofRatio, dif_neg (Nat.not_lt.2 hreached)]
  rfl

theorem isFinite_add (hx : x.isModerate = true) (hy : y.isFinite = true) :
    (x.add y).isFinite = true := by
  cases x with
  | finite s a ha =>
    cases y with
    | finite t b hb =>
      have hsmall : 2 * a < topSpacing := by simpa [isModerate] using hx
      have htop := add_top_le hb
      have hsum : (signed s a + signed t b).natAbs ≤ a + b := by
        cases s <;> cases t <;> simp only [signed, Bool.false_eq_true, if_true, if_false] <;> omega
      unfold add
      dsimp only
      split
      · rfl
      -- The sum is more than half a gap below the limit, and rounding errs by no more than that.
      · exact isFinite_ofRatio (by omega)
    | _ => simp [isFinite] at hy
  | _ => simp [isModerate] at hx

theorem neg_finite {negative : Bool} (h : Representable n) :
    -(finite negative n h) = finite (!negative) n h := rfl

theorem one_eq : ∃ h, (1 : Binary64) = .finite false unitsPerOne h :=
  ⟨by decide +kernel, by decide +kernel⟩

theorem atMost_of_le {a b : Nat} {ha : Representable a} {hb : Representable b} (h : a ≤ b) :
    (finite false a ha).atMost (finite false b hb) = true :=
  decide_eq_true (Int.ofNat_le.2 h)

theorem isFinite_neg (x : Binary64) : (-x).isFinite = x.isFinite := by
  cases x <;> rfl

theorem isFinite_divide (hx : x.isFinite = true) (hy : (1 : Binary64).atMost y = true) :
    (x.divide y).isFinite = true := by
  obtain ⟨hu, hone⟩ := one_eq
  rw [hone] at hy
  cases x with
  | finite s a ha =>
    cases y with
    | finite t b hb =>
      have hle : signed false unitsPerOne ≤ signed t b := of_decide_eq_true hy
      have hpos := unitsPerOne_pos
      have hb : unitsPerOne ≤ b := by
        cases t <;> simp only [signed, Bool.false_eq_true, if_true, if_false] at hle <;> omega
      have hbound : a * unitsPerOne ≤ b * a := by
        rw [Nat.mul_comm]
        exact Nat.mul_le_mul_right a hb
      have hlt := Nat.lt_of_le_of_lt (nearestUnits_le ha.2 hbound) ha.1
      simp [divide, ofRatio, isFinite, hlt, show b ≠ 0 by omega]
    | infinite t => rfl
    | nan => cases hy
  | _ => cases hx
/-- A factor of one or minus one takes part in the sign only. -/
theorem multiply_unit {negative : Bool} {units : Nat} (h : Representable units)
    (hy : y = 1 ∨ y = -1) :
    ∃ s, (Binary64.finite negative units h).multiply y = .finite s units h := by
  obtain ⟨hu, hone⟩ := one_eq
  have hsign : ∃ t, y = .finite t unitsPerOne hu := by
    rcases hy with hy | hy
    · exact ⟨false, hy.trans hone⟩
    · rw [hone, neg_finite] at hy
      exact ⟨true, hy⟩
  obtain ⟨t, rfl⟩ := hsign
  have hn : nearestUnits (units * unitsPerOne) unitsPerOne = units :=
    nearestUnits_exact unitsPerOne_pos h.2
  refine ⟨negative != t, ?_⟩
  simp only [multiply, ofRatio, hn, h.1, dif_pos]

theorem isModerate_multiply (hx : x.isModerate = true) (hy : y = 1 ∨ y = -1) :
    (x.multiply y).isModerate = true := by
  cases x with
  | finite negative units h =>
    obtain ⟨s, hs⟩ := multiply_unit h hy
    rw [hs]
    exact hx
  | _ => simp [isModerate] at hx

theorem isFinite_multiply (hx : x.isFinite = true) (hy : y = 1 ∨ y = -1) :
    (x.multiply y).isFinite = true := by
  cases x with
  | finite negative units h =>
    obtain ⟨s, hs⟩ := multiply_unit h hy
    rw [hs]
    rfl
  | _ => simp [isFinite] at hx

theorem isModerate_of_between (hl : l.isModerate = true) (hu : u.isModerate = true)
    (hlx : l.atMost x = true) (hxu : x.atMost u = true) (hx : x.isFinite = true) :
    x.isModerate = true := by
  cases x with
  | finite s a ha =>
    cases l with
    | finite t b hb =>
      cases u with
      | finite r c hc =>
        simp only [isModerate, atMost, position?, decide_eq_true_eq] at *
        cases s <;> cases t <;> cases r <;>
          simp only [signed, Bool.false_eq_true, if_true, if_false] at hlx hxu <;> omega
      | _ => simp [isModerate] at hu
    | _ => simp [isModerate] at hl
  | _ => simp [isFinite] at hx

/-- A finite number added to a finite one is a number, if not a finite one. -/
theorem add_ne_nan (hx : x.isFinite = true) (hy : y.isFinite = true) : x.add y ≠ nan := by
  cases x with
  | finite s a ha =>
    cases y with
    | finite t b hb =>
      unfold add ofRatio
      dsimp only
      split
      · simp [zero]
      · split <;> simp
    | _ => simp [isFinite] at hy
  | _ => simp [isFinite] at hx

end ProbeCycle.Binary64
