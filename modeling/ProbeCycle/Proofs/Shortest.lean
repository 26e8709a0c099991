import Mathlib.Algebra.Order.Ring.Abs
import ProbeCycle.Proofs.Decimal.Value
import ProbeCycle.Proofs.ReadBack

namespace ProbeCycle

namespace Decimal

variable {d : Decimal}

/-- The significant digits have no zero at their end. -/
theorem getLast?_significant (d : Decimal) : d.significant.1.getLast? ≠ some '0' := by
  intro h
  have hstop := List.head?_dropWhile_not (· == '0') (Nat.toDigits 10 d.digits).reverse
  rw [significant, List.getLast?_reverse] at h
  rw [h] at hstop
  simp at hstop

theorem getLast?_toDigits_tenfold {n : Nat} (h : n ≠ 0) :
    (Nat.toDigits 10 (10 * n)).getLast? = some '0' := by
  rw [Nat.toDigits_of_base_le (by decide) (by omega), List.getLast?_append, Nat.mul_mod_right]
  rfl

theorem length_significant_le {count : Nat} (h : d.digits ≤ 10 ^ (count + 1)) :
    d.significant.1.length ≤ count + 1 := by
  obtain ⟨k, hdigits, _⟩ := toDigits_eq_significant d
  have hlength := congrArg List.length hdigits
  rw [List.length_append, List.length_replicate] at hlength
  rcases Nat.lt_or_eq_of_le h with hlt | heq
  · have hle := (Nat.length_toDigits_le_iff (by decide) (Nat.succ_pos count)).2 hlt
    omega
  -- A power of ten has a digit more, but that is a zero at the end.
  · have hnext : d.digits < 10 ^ (count + 2) := by
      rw [heq]
      exact Nat.pow_lt_pow_right (by decide) (by omega)
    have hle := (Nat.length_toDigits_le_iff (by decide) (Nat.succ_pos (count + 1))).2 hnext
    have hk : k ≠ 0 := by
      rintro rfl
      have hlast : (Nat.toDigits 10 d.digits).getLast? = some '0' := by
        rw [heq, Nat.pow_succ']
        exact getLast?_toDigits_tenfold (pow_ne_zero count (by decide))
      rw [hdigits, List.replicate_zero, List.append_nil] at hlast
      exact getLast?_significant d hlast
    omega

end Decimal

namespace Binary64

variable {units count n : Nat} {tie : Tie}

/-- How many times 10 ^ -1074 a unit is. -/
def partsPerUnit : Nat := Nat.pow 5 1074

/-- A magnitude as a whole number. -/
def parts (units : Nat) : Nat := units * partsPerUnit

theorem partsPerUnit_pos : 0 < partsPerUnit := by decide +kernel

theorem inUnits_grid (m k : Nat) :
    (Decimal.mk m (k - 1074)).inUnits = (m * 10 ^ k : Nat) / partsPerUnit := by
  obtain ⟨e, he, hten⟩ : ∃ e : Nat, (1074 : Int) = e ∧ partsPerUnit * unitsPerOne = Nat.pow 10 e :=
    ⟨1074, rfl, by decide +kernel⟩
  have hpow : (partsPerUnit * unitsPerOne : ℚ) = 10 ^ e := by exact_mod_cast hten
  have hparts : (partsPerUnit : ℚ) ≠ 0 := Nat.cast_ne_zero.2 partsPerUnit_pos.ne'
  have hone : (10 : ℚ) ^ e ≠ 0 := pow_ne_zero _ (by norm_num)
  rw [Decimal.inUnits_eq, he, zpow_sub₀ (by norm_num), zpow_natCast, zpow_natCast,
    eq_div_iff hparts]
  push_cast
  rw [mul_assoc, mul_assoc, mul_comm (unitsPerOne : ℚ), hpow, div_mul_cancel₀ _ hone]

theorem exactNumeral_eq (units : Nat) :
    exactNumeral units = ⟨parts units, (0 : Nat) - 1074⟩ := by
  unfold exactNumeral parts partsPerUnit
  rw [Nat.cast_zero, zero_sub]

theorem inUnits_exactNumeral (units : Nat) : (exactNumeral units).inUnits = units := by
  have hparts : (partsPerUnit : ℚ) ≠ 0 := Nat.cast_ne_zero.2 partsPerUnit_pos.ne'
  rw [exactNumeral_eq, inUnits_grid, pow_zero, mul_one, parts, Nat.cast_mul,
    mul_div_cancel_right₀ _ hparts]

theorem ten_pow_le_two_pow {k l : Nat} (h : 196 * k ≤ 59 * l) : 10 ^ k ≤ 2 ^ l := by
  refine (Nat.pow_le_pow_iff_left (n := 59) (by decide)).1 ?_
  calc
    (10 ^ k) ^ 59 = (10 ^ 59) ^ k := Nat.pow_right_comm ..
    _ ≤ (2 ^ 196) ^ k := Nat.pow_le_pow_left (by decide) k
    _ = 2 ^ (196 * k) := (Nat.pow_mul ..).symm
    _ ≤ 2 ^ (l * 59) := Nat.pow_le_pow_right (by decide) (by omega)
    _ = (2 ^ l) ^ 59 := Nat.pow_mul ..

theorem two_pow_le_ten_pow {k l : Nat} (h : 28 * l ≤ 93 * k) : 2 ^ l ≤ 10 ^ k := by
  refine (Nat.pow_le_pow_iff_left (n := 93) (by decide)).1 ?_
  calc
    (2 ^ l) ^ 93 = (2 ^ 93) ^ l := Nat.pow_right_comm ..
    _ ≤ (10 ^ 28) ^ l := Nat.pow_le_pow_left (by decide) l
    _ = 10 ^ (28 * l) := (Nat.pow_mul ..).symm
    _ ≤ 10 ^ (k * 93) := Nat.pow_le_pow_right (by decide) (by omega)
    _ = (10 ^ k) ^ 93 := Nat.pow_mul ..

theorem digitCount_bounds (hn : n ≠ 0) (hlog : n.log2 < 10000) :
    10 ^ (digitCount n - 1) ≤ n ∧ n < 10 ^ digitCount n := by
  have hlow : 10 ^ (n.log2 * 30102 / 100000) ≤ 2 ^ n.log2 := ten_pow_le_two_pow (by omega)
  have hhigh : 2 ^ (n.log2 + 1) ≤ 10 ^ (n.log2 * 30102 / 100000 + 2) :=
    two_pow_le_ten_pow (by omega)
  have hself : 2 ^ n.log2 ≤ n := Nat.log2_self_le hn
  have hlt : n < 2 ^ (n.log2 + 1) := Nat.lt_log2_self
  unfold digitCount
  dsimp only
  split
  · rename_i hnext
    exact ⟨hnext, Nat.lt_of_lt_of_le hlt hhigh⟩
  · rename_i hnext
    exact ⟨Nat.le_trans hlow hself, Nat.lt_of_not_le hnext⟩

theorem parts_bounds (hu : units < unitLimit) (hz : units ≠ 0) :
    10 ^ (digitCount (parts units) - 1) ≤ parts units ∧
      parts units < 10 ^ digitCount (parts units) := by
  have hne : parts units ≠ 0 := Nat.mul_ne_zero hz partsPerUnit_pos.ne'
  obtain ⟨k, hk, hlimit⟩ : ∃ k, k ≤ 10000 ∧ unitLimit * partsPerUnit ≤ Nat.pow 2 k :=
    ⟨4592, by decide, by decide +kernel⟩
  have hlt : parts units < 2 ^ k :=
    Nat.lt_of_lt_of_le (Nat.mul_lt_mul_of_pos_right hu partsPerUnit_pos) hlimit
  exact digitCount_bounds hne (Nat.lt_of_lt_of_le ((Nat.log2_lt hne).2 hlt) hk)

theorem seventeen_le_digitCount (hu : units < unitLimit) (hz : units ≠ 0) :
    17 ≤ digitCount (parts units) := by
  have hlarge : 10 ^ 17 ≤ partsPerUnit := by decide +kernel
  have hle : partsPerUnit ≤ parts units := Nat.le_mul_of_pos_left _ (Nat.pos_of_ne_zero hz)
  have hlt := Nat.lt_of_le_of_lt (Nat.le_trans hlarge hle) (parts_bounds hu hz).2
  exact Nat.le_of_lt ((Nat.pow_lt_pow_iff_right (by decide)).1 hlt)

theorem two_mul_le_of_prefersLower {num den : Nat} (h : tie.prefersLower num den = true) :
    2 * (num % den) ≤ den := by
  simp only [Tie.prefersLower, Bool.or_eq_true, Bool.and_eq_true, decide_eq_true_eq,
    beq_iff_eq] at h
  omega

theorem le_two_mul_of_prefersLower {num den : Nat} (h : tie.prefersLower num den = false) :
    den ≤ 2 * (num % den) := by
  simp only [Tie.prefersLower, Bool.or_eq_false_iff, decide_eq_false_iff_not] at h
  omega

/-- If a numeral outside of the neighbours reads back, then so does one of them that is as near. -/
theorem readingBack?_nearest {lower upper d : Decimal} {preferLower : Bool}
    (hu : Representable units) (hlower : lower.inUnits ≤ units) (hupper : units ≤ upper.inUnits)
    (hprefer : preferLower = true → units - lower.inUnits ≤ upper.inUnits - units)
    (hprefer' : preferLower = false → upper.inUnits - units ≤ units - lower.inUnits)
    (hd : d.units = units) (hout : d.inUnits ≤ lower.inUnits ∨ upper.inUnits ≤ d.inUnits) :
    ∃ best, readingBack? units preferLower lower upper = some best ∧
      |best.inUnits - units| ≤ |d.inUnits - units| := by
  have hexact := units_exactNumeral hu
  have hvalue := inUnits_exactNumeral units
  have hlowerDist : |lower.inUnits - units| = units - lower.inUnits := by
    rw [abs_sub_comm, abs_of_nonneg (sub_nonneg.2 hlower)]
  have hupperDist : |upper.inUnits - units| = upper.inUnits - units :=
    abs_of_nonneg (sub_nonneg.2 hupper)
  unfold readingBack?
  rcases hout with hout | hout
  · have hback : lower.units = units :=
      Decimal.units_of_between hu.1 hd hexact hout (hlower.trans_eq hvalue.symm)
    have hdist : units - lower.inUnits ≤ |d.inUnits - units| := by
      have habs := neg_le_abs (d.inUnits - units)
      linarith
    by_cases hfirst : preferLower = true ∨ upper.units ≠ units
    · exact ⟨lower, if_pos ⟨hback, hfirst⟩, hlowerDist.trans_le hdist⟩
    · obtain ⟨hno, hyes⟩ := not_or.1 hfirst
      refine ⟨upper, by rw [if_neg (fun h => hfirst h.2), if_pos (not_not.1 hyes)], ?_⟩
      have hcloser := hprefer' (Bool.eq_false_iff.2 hno)
      linarith
  · have hback : upper.units = units :=
      Decimal.units_of_between hu.1 hexact hd (hvalue.trans_le hupper) hout
    have hdist : upper.inUnits - units ≤ |d.inUnits - units| := by
      have habs := le_abs_self (d.inUnits - units)
      linarith
    by_cases hfirst : lower.units = units ∧ (preferLower = true ∨ upper.units ≠ units)
    · refine ⟨lower, if_pos hfirst, ?_⟩
      have hcloser := hprefer (hfirst.2.resolve_right (not_not.2 hback))
      linarith
    · exact ⟨upper, by rw [if_neg hfirst, if_pos hback], hupperDist.trans_le hdist⟩

/-- How many digits of a magnitude are left out. -/
def dropped (units count : Nat) : Nat := digitCount (parts units) - count

/-- The step between numerals, in parts. -/
def step (units count : Nat) : Nat := 10 ^ dropped units count

def lowerNeighbour (units count : Nat) : Decimal :=
  ⟨parts units / step units count, dropped units count - 1074⟩

def upperNeighbour (units count : Nat) : Decimal :=
  ⟨parts units / step units count + 1, dropped units count - 1074⟩

theorem digits_upperNeighbour (units count : Nat) :
    (upperNeighbour units count).digits = (lowerNeighbour units count).digits + 1 := by
  unfold upperNeighbour lowerNeighbour
  rfl

theorem step_pos (units count : Nat) : 0 < step units count := Nat.pow_pos (by decide)

theorem numeralOfLength?_eq (tie : Tie) (units count : Nat) :
    numeralOfLength? tie units count =
      readingBack? units (tie.prefersLower (parts units) (step units count))
        (lowerNeighbour units count) (upperNeighbour units count) := by
  unfold numeralOfLength? lowerNeighbour upperNeighbour step dropped exactNumeral parts partsPerUnit
  rfl

theorem sub_lowerNeighbour (units count : Nat) : units - (lowerNeighbour units count).inUnits =
    (parts units % step units count : Nat) / partsPerUnit := by
  have hparts : (partsPerUnit : ℚ) ≠ 0 := Nat.cast_ne_zero.2 partsPerUnit_pos.ne'
  have hsplit : parts units / step units count * 10 ^ dropped units count +
      parts units % step units count = units * partsPerUnit := Nat.div_add_mod' ..
  rw [lowerNeighbour, inUnits_grid, sub_div' hparts, div_left_inj' hparts, sub_eq_iff_eq_add',
    ← Nat.cast_mul, ← Nat.cast_add, hsplit]

theorem upperNeighbour_sub_lowerNeighbour (units count : Nat) :
    (upperNeighbour units count).inUnits - (lowerNeighbour units count).inUnits =
      step units count / partsPerUnit := by
  rw [upperNeighbour, lowerNeighbour, inUnits_grid, inUnits_grid, ← sub_div, ← step, Nat.succ_mul,
    Nat.cast_add, add_sub_cancel_left]

theorem lowerNeighbour_le (units count : Nat) : (lowerNeighbour units count).inUnits ≤ units := by
  have hrest : (0 : ℚ) ≤ (parts units % step units count : Nat) / partsPerUnit := by positivity
  linarith [sub_lowerNeighbour units count]

theorem le_upperNeighbour (units count : Nat) : units ≤ (upperNeighbour units count).inUnits := by
  have hlt : ((parts units % step units count : Nat) : ℚ) ≤ step units count :=
    Nat.cast_le.2 (Nat.le_of_lt (Nat.mod_lt _ (step_pos units count)))
  have hrest := div_le_div_of_nonneg_right hlt (Nat.cast_nonneg' partsPerUnit)
  linarith [sub_lowerNeighbour units count, upperNeighbour_sub_lowerNeighbour units count]

theorem nearer_lowerNeighbour (h : 2 * (parts units % step units count) ≤ step units count) :
    units - (lowerNeighbour units count).inUnits ≤
      (upperNeighbour units count).inUnits - units := by
  have hhalf : (2 * (parts units % step units count : Nat) : ℚ) ≤ step units count := by
    exact_mod_cast h
  have hscaled := div_le_div_of_nonneg_right hhalf (Nat.cast_nonneg' partsPerUnit)
  rw [mul_div_assoc] at hscaled
  linarith [sub_lowerNeighbour units count, upperNeighbour_sub_lowerNeighbour units count]

theorem nearer_upperNeighbour (h : step units count ≤ 2 * (parts units % step units count)) :
    (upperNeighbour units count).inUnits - units ≤
      units - (lowerNeighbour units count).inUnits := by
  have hhalf : (step units count : ℚ) ≤ 2 * (parts units % step units count : Nat) := by
    exact_mod_cast h
  have hscaled := div_le_div_of_nonneg_right hhalf (Nat.cast_nonneg' partsPerUnit)
  rw [mul_div_assoc] at hscaled
  linarith [sub_lowerNeighbour units count, upperNeighbour_sub_lowerNeighbour units count]

/-- If a numeral outside of the neighbours reads back, the search takes one of them, and none that
is farther. -/
theorem numeralOfLength?_nearest (tie : Tie) {d : Decimal} (hu : Representable units)
    (hd : d.units = units) (hout : d.inUnits ≤ (lowerNeighbour units count).inUnits ∨
      (upperNeighbour units count).inUnits ≤ d.inUnits) :
    ∃ best, numeralOfLength? tie units count = some best ∧
      |best.inUnits - units| ≤ |d.inUnits - units| := by
  rw [numeralOfLength?_eq]
  exact readingBack?_nearest hu (lowerNeighbour_le _ _) (le_upperNeighbour _ _)
    (fun h => nearer_lowerNeighbour (two_mul_le_of_prefersLower h))
    (fun h => nearer_upperNeighbour (le_two_mul_of_prefersLower h)) hd hout

theorem add_dropped (hu : units < unitLimit) (hz : units ≠ 0) (hcount : count < 17) :
    count + dropped units (count + 1) = digitCount (parts units) - 1 := by
  have hmany := seventeen_le_digitCount hu hz
  unfold dropped
  omega

/-- The lower neighbour has all of the digits asked for. -/
theorem digits_lowerNeighbour (hu : units < unitLimit) (hz : units ≠ 0) (hcount : count < 17) :
    10 ^ count ≤ (lowerNeighbour units (count + 1)).digits ∧
      (lowerNeighbour units (count + 1)).digits < 10 ^ (count + 1) := by
  have hsum := add_dropped hu hz hcount
  have hmany := seventeen_le_digitCount hu hz
  obtain ⟨hlow, hhigh⟩ := parts_bounds hu hz
  have hpos := step_pos units (count + 1)
  rw [lowerNeighbour]
  constructor
  · rw [Nat.le_div_iff_mul_le hpos, step, ← Nat.pow_add, hsum]
    exact hlow
  · rw [Nat.div_lt_iff_lt_mul hpos, step, ← Nat.pow_add, Nat.add_right_comm, hsum,
      Nat.sub_add_cancel (by omega)]
    exact hhigh

theorem digits_of_numeralOfLength? {d : Decimal} (hu : units < unitLimit) (hz : units ≠ 0)
    (hcount : count < 17) (h : numeralOfLength? tie units (count + 1) = some d) :
    d.digits ≤ 10 ^ (count + 1) := by
  have hdigits := (digits_lowerNeighbour hu hz hcount).2
  rw [numeralOfLength?_eq] at h
  unfold readingBack? at h
  split at h
  · rw [← Option.some.inj h]
    exact Nat.le_of_lt hdigits
  · split at h
    · rw [← Option.some.inj h, digits_upperNeighbour]
      exact Nat.succ_le_of_lt hdigits
    · cases h

/-- No numeral is missed that has as few digits. -/
theorem numeralOfLength?_of_digits (tie : Tie) {d : Decimal} (hu : Representable units)
    (hz : units ≠ 0) (hcount : count < 17) (hd : d.units = units)
    (hdigits : d.digits < 10 ^ (count + 1)) :
    ∃ best, numeralOfLength? tie units (count + 1) = some best ∧
      |best.inUnits - units| ≤ |d.inUnits - units| :=
  numeralOfLength?_nearest tie hu hd
    (Decimal.outside_neighbours (digits_lowerNeighbour hu.1 hz hcount).1 hdigits)

/-- The step between numerals of seventeen digits is less than the gap below the number. -/
theorem step_lt_gap (hu : units < unitLimit) (hz : units ≠ 0) :
    step units 17 < partsPerUnit * spacing (units - 1) := by
  have hunits : units ≤ 2 ^ 53 * spacing (units - 1) := by
    have hlt := lt_spacing (units - 1)
    omega
  have hscaled : 10 ^ 16 * step units 17 ≤ 2 ^ 53 * (partsPerUnit * spacing (units - 1)) :=
    calc
      10 ^ 16 * step units 17 = 10 ^ (digitCount (parts units) - 1) := by
        rw [step, ← Nat.pow_add, add_dropped hu hz (by decide)]
      _ ≤ units * partsPerUnit := (parts_bounds hu hz).1
      _ ≤ 2 ^ 53 * spacing (units - 1) * partsPerUnit := Nat.mul_le_mul_right _ hunits
      _ = 2 ^ 53 * (partsPerUnit * spacing (units - 1)) := by ring
  have hpos := step_pos units 17
  omega

/-- With seventeen digits the nearer neighbour is within half a gap, so it reads back. -/
theorem numeralOfLength?_seventeen (tie : Tie) (hu : Representable units) (hz : units ≠ 0) :
    ∃ best, numeralOfLength? tie units 17 = some best := by
  have hparts : (0 : ℚ) < partsPerUnit := Nat.cast_pos.2 partsPerUnit_pos
  have hgap : (step units 17 : ℚ) / partsPerUnit < spacing (units - 1) := by
    rw [div_lt_iff₀' hparts, ← Nat.cast_mul]
    exact Nat.cast_lt.2 (step_lt_gap hu.1 hz)
  have hgap' : (spacing (units - 1) : ℚ) ≤ spacing units :=
    Nat.cast_le.2 (Nat.le_of_dvd (spacing_pos _) (spacing_dvd_spacing (Nat.sub_le units 1)))
  have hstep := upperNeighbour_sub_lowerNeighbour units 17
  have hlower := lowerNeighbour_le units 17
  have hupper := le_upperNeighbour units 17
  rcases Nat.le_total (2 * (parts units % step units 17)) (step units 17) with h | h
  · have hnearer := nearer_lowerNeighbour h
    have hback := Decimal.units_of_near hu (d := lowerNeighbour units 17) (by linarith)
      (by linarith)
    obtain ⟨best, hbest, _⟩ := numeralOfLength?_nearest tie hu hback (Or.inl (le_refl _))
    exact ⟨best, hbest⟩
  · have hnearer := nearer_upperNeighbour h
    have hback := Decimal.units_of_near hu (d := upperNeighbour units 17) (by linarith)
      (by linarith)
    obtain ⟨best, hbest, _⟩ := numeralOfLength?_nearest tie hu hback (Or.inr (le_refl _))
    exact ⟨best, hbest⟩

theorem findSome?_range_eq_some {α : Type} {f : Nat → Option α} {a : α}
    (h : (List.range n).findSome? f = some a) : ∃ i < n, f i = some a ∧ ∀ j < i, f j = none := by
  obtain ⟨before, i, after, hrange, hi, hbefore⟩ := List.findSome?_eq_some_iff.1 h
  rw [List.range_eq_range', List.range'_eq_append_iff] at hrange
  obtain ⟨k, hk, rfl, hcons⟩ := hrange
  obtain ⟨hki, hpos, _⟩ := List.range'_eq_cons_iff.1 hcons.symm
  refine ⟨i, by omega, hi, fun j hj => hbefore j ?_⟩
  rw [List.mem_range'_1]
  omega

/-- The search ends within seventeen digits, at the first number of digits that is enough. -/
theorem shortest_found (tie : Tie) (hu : Representable units) (hz : units ≠ 0) :
    ∃ count < 17, numeralOfLength? tie units (count + 1) = some (shortest tie units) ∧
      ∀ fewer < count, numeralOfLength? tie units (fewer + 1) = none := by
  obtain ⟨last, hlast⟩ := numeralOfLength?_seventeen tie hu hz
  unfold shortest
  cases hs : (List.range 17).findSome? fun i => numeralOfLength? tie units (i + 1) with
  | none =>
    have hnone := List.findSome?_eq_none_iff.1 hs 16 (by decide)
    rw [hlast] at hnone
    cases hnone
  | some d => exact findSome?_range_eq_some hs

/-- The shortest numeral has seventeen digits at most. None that reads back has fewer, and none
with as many is nearer. -/
theorem shortest_least (tie : Tie) (hu : Representable units) (hz : units ≠ 0) :
    (shortest tie units).significant.1.length ≤ 17 ∧ ∀ d : Decimal, d.units = units →
      (shortest tie units).significant.1.length ≤ (Nat.toDigits 10 d.digits).length ∧
      ((Nat.toDigits 10 d.digits).length = (shortest tie units).significant.1.length →
        |(shortest tie units).inUnits - units| ≤ |d.inUnits - units|) := by
  obtain ⟨count, hcount, hfound, hfewer⟩ := shortest_found tie hu hz
  have hlength := Decimal.length_significant_le (digits_of_numeralOfLength? hu.1 hz hcount hfound)
  refine ⟨by omega, ?_⟩
  intro d hd
  have hfits : ∀ {k}, (Nat.toDigits 10 d.digits).length ≤ k + 1 → d.digits < 10 ^ (k + 1) :=
    (Nat.length_toDigits_le_iff (by decide) (Nat.succ_pos _)).1
  have hpos : 0 < (Nat.toDigits 10 d.digits).length := Nat.length_toDigits_pos
  constructor
  · apply Nat.le_of_not_lt
    intro hlt
    obtain ⟨fewer, hsucc⟩ := Nat.exists_eq_succ_of_ne_zero hpos.ne'
    obtain ⟨best, hbest, _⟩ := numeralOfLength?_of_digits tie hu hz (by omega) hd
      (hfits (k := fewer) (by omega))
    rw [hfewer fewer (by omega)] at hbest
    cases hbest
  · intro heq
    obtain ⟨best, hbest, hnear⟩ := numeralOfLength?_of_digits tie hu hz hcount hd (hfits (by omega))
    rw [hfound] at hbest
    cases hbest
    exact hnear

end Binary64

end ProbeCycle
