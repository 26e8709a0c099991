import ProbeCycle.Proofs.Json.Literal

namespace ProbeCycle

namespace Decimal

/-- The value of a numeral is below a whole number. -/
def Below (d : Decimal) (bound : Nat) : Prop :=
  d.digits * 10 ^ d.exponent.toNat < bound * 10 ^ (-d.exponent).toNat

instance (d : Decimal) (bound : Nat) : Decidable (d.Below bound) :=
  inferInstanceAs (Decidable (_ < _))

/-- Zeros at the end count as much as the exponent that they stand for. -/
theorem below_shift {digits zeros bound : Nat} {exponent : Int} :
    (mk (digits * 10 ^ zeros) exponent).Below bound ↔
      (mk digits (exponent + zeros)).Below bound := by
  have hpow : 10 ^ zeros * 10 ^ exponent.toNat * 10 ^ (-(exponent + zeros)).toNat =
      10 ^ (exponent + zeros).toNat * 10 ^ (-exponent).toNat := by
    rw [← Nat.pow_add, ← Nat.pow_add, ← Nat.pow_add]
    congr 1
    omega
  have hleft : digits * 10 ^ zeros * 10 ^ exponent.toNat * 10 ^ (-(exponent + zeros)).toNat =
      digits * 10 ^ (exponent + zeros).toNat * 10 ^ (-exponent).toNat := by
    rw [Nat.mul_assoc digits, Nat.mul_assoc digits, hpow, Nat.mul_assoc digits]
  have hright : bound * 10 ^ (-exponent).toNat * 10 ^ (-(exponent + zeros)).toNat =
      bound * 10 ^ (-(exponent + zeros)).toNat * 10 ^ (-exponent).toNat := Nat.mul_right_comm ..
  have hten : ∀ k, 0 < 10 ^ k := fun k => Nat.pow_pos (by decide)
  unfold Below
  dsimp only
  rw [← Nat.mul_lt_mul_right (hten (-(exponent + zeros)).toNat), hleft, hright,
    Nat.mul_lt_mul_right (hten _)]

/-- Digits that differ by one part in `10 ^ 18` at most keep below a bound that leaves as much. -/
theorem Below.near {m n bound bound' : Nat} {exponent : Int} (h : (mk m exponent).Below bound)
    (hnear : 10 ^ 18 * n ≤ (10 ^ 18 + 1) * m)
    (hroom : (10 ^ 18 + 1) * bound ≤ 10 ^ 18 * bound') : (mk n exponent).Below bound' := by
  unfold Below at h ⊢
  dsimp only at h ⊢
  apply Nat.lt_of_mul_lt_mul_left (a := 10 ^ 18)
  calc
    10 ^ 18 * (n * 10 ^ exponent.toNat) = 10 ^ 18 * n * 10 ^ exponent.toNat :=
      (Nat.mul_assoc ..).symm
    _ ≤ (10 ^ 18 + 1) * m * 10 ^ exponent.toNat := Nat.mul_le_mul_right _ hnear
    _ = (10 ^ 18 + 1) * (m * 10 ^ exponent.toNat) := Nat.mul_assoc ..
    _ < (10 ^ 18 + 1) * (bound * 10 ^ (-exponent).toNat) :=
      Nat.mul_lt_mul_of_pos_left h (by decide)
    _ = (10 ^ 18 + 1) * bound * 10 ^ (-exponent).toNat := (Nat.mul_assoc ..).symm
    _ ≤ 10 ^ 18 * bound' * 10 ^ (-exponent).toNat := Nat.mul_le_mul_right _ hroom
    _ = 10 ^ 18 * (bound' * 10 ^ (-exponent).toNat) := Nat.mul_assoc ..

end Decimal

namespace Binary64

/-- A whole number of ones is rounded by no more than one part in `2 ^ 53`. -/
theorem nearestUnits_ones (n : Nat) :
    2 ^ 53 * nearestUnits (n * unitsPerOne) 1 ≤ (2 ^ 53 + 1) * (n * unitsPerOne) ∧
      (2 ^ 53 - 1) * (n * unitsPerOne) ≤ 2 ^ 53 * nearestUnits (n * unitsPerOne) 1 := by
  rcases Nat.eq_zero_or_pos n with rfl | hn
  · rw [Nat.zero_mul]
    decide
  · generalize hm : n * unitsPerOne = m
    have hlarge : 2 ^ 52 ≤ m := by
      have hone : 2 ^ 52 ≤ 1 * unitsPerOne := by decide +kernel
      exact hm ▸ Nat.le_trans hone (Nat.mul_le_mul_right _ hn)
    have hne : m ≠ 0 := by
      rintro rfl
      exact absurd hlarge (by decide)
    have hlog : 52 ≤ m.log2 := (Nat.le_log2 hne).2 hlarge
    have hgap : 2 ^ 52 * spacing m ≤ m := by
      change 2 ^ 52 * 2 ^ (m.log2 - 52) ≤ m
      rw [← Nat.pow_add, Nat.add_sub_cancel' hlog]
      exact Nat.log2_self_le hne
    have hhigh := nearestUnits_error m 1
    have hlow := le_nearestUnits_error m Nat.one_pos
    rw [Nat.div_one] at hhigh hlow
    omega

end Binary64

namespace NumberLiteral

open Binary64 (ofRatio unitsPerOne unitLimit topSpacing nearestUnits)

variable {l : NumberLiteral} {m k digits : Nat} {exponent shift : Int}

/-- Numerals below 1.7976931348623154 · 10 ^ 308 are never refused. -/
def acceptedBelow : Nat := 17976931348623154 * 10 ^ 292

/-- Numerals from 1.7976931348623164 · 10 ^ 308 on are always refused. -/
def refusedFrom : Nat := 17976931348623164 * 10 ^ 292

/-- So far below the limit of the numbers that no rounding leads there. -/
def ceiling : Nat := 1797693134862315405 * 10 ^ 290

/-- So far beyond the limit of the numbers that no rounding leads back. -/
def beyond : Nat := 1797693134862316395 * 10 ^ 290

theorem isFinite_tenTo (h : k ≤ 308) : (tenTo k).isFinite = true := by
  obtain ⟨e, he, htop⟩ : ∃ e, k ≤ e ∧ 2 * (Nat.pow 10 e * unitsPerOne) + topSpacing <
      2 * unitLimit := ⟨308, h, by decide +kernel⟩
  have hpow : 10 ^ k ≤ Nat.pow 10 e := Nat.pow_le_pow_right (by decide) he
  have hunits : 10 ^ k * unitsPerOne ≤ Nat.pow 10 e * unitsPerOne := Nat.mul_le_mul_right _ hpow
  rw [tenTo_eq]
  exact Binary64.isFinite_ofRatio (by omega)

/-- The digits, the power of ten and their product are each rounded. -/
theorem multiply_tenTo (hm : m < UInt64.size) (hk : k ≤ 308) :
    (Binary64.ofNat m).multiply (tenTo k) = ofRatio false
      (nearestUnits (m * unitsPerOne) 1 * nearestUnits (10 ^ k * unitsPerOne) 1) unitsPerOne := by
  have hx : (ofRatio false (m * unitsPerOne) 1).isFinite = true := isFinite_whole hm
  have hy := isFinite_tenTo hk
  rw [tenTo_eq] at hy ⊢
  unfold Binary64.ofNat
  unfold ofRatio at hx hy ⊢
  split at hx
  · split at hy
    · rename_i hx' hy'
      rw [dif_pos hx', dif_pos hy']
      rfl
    · cases hy
  · cases hx

theorem isFinite_product (hm : m < UInt64.size) (hk : k ≤ 308) (h : m * 10 ^ k ≤ ceiling) :
    ((Binary64.ofNat m).multiply (tenTo k)).isFinite = true := by
  have hdigits := (Binary64.nearestUnits_ones m).1
  have hpower := (Binary64.nearestUnits_ones (10 ^ k)).1
  rw [multiply_tenTo hm hk]
  generalize nearestUnits (m * unitsPerOne) 1 = a at *
  generalize nearestUnits (10 ^ k * unitsPerOne) 1 = b at *
  have hproduct : 2 ^ 106 * (a * b) ≤ (2 ^ 53 + 1) ^ 2 * (ceiling * unitsPerOne * unitsPerOne) :=
    calc
      2 ^ 106 * (a * b) = 2 ^ 53 * a * (2 ^ 53 * b) := by ring
      _ ≤ (2 ^ 53 + 1) * (m * unitsPerOne) * ((2 ^ 53 + 1) * (10 ^ k * unitsPerOne)) :=
        Nat.mul_le_mul hdigits hpower
      _ = (2 ^ 53 + 1) ^ 2 * (m * 10 ^ k * unitsPerOne * unitsPerOne) := by ring
      _ ≤ (2 ^ 53 + 1) ^ 2 * (ceiling * unitsPerOne * unitsPerOne) :=
        Nat.mul_le_mul_left _ (Nat.mul_le_mul_right _ (Nat.mul_le_mul_right _ h))
  have hroom : 2 * ((2 ^ 53 + 1) ^ 2 * (ceiling * unitsPerOne * unitsPerOne)) +
      2 ^ 106 * (unitsPerOne * topSpacing) < 2 ^ 106 * (2 * (unitsPerOne * unitLimit)) := by
    decide +kernel
  exact Binary64.isFinite_ofRatio (by omega)

theorem not_isFinite_product (hm : m < UInt64.size) (hk : k ≤ 308) (h : beyond ≤ m * 10 ^ k) :
    ((Binary64.ofNat m).multiply (tenTo k)).isFinite = false := by
  have hdigits := (Binary64.nearestUnits_ones m).2
  have hpower := (Binary64.nearestUnits_ones (10 ^ k)).2
  rw [multiply_tenTo hm hk]
  generalize nearestUnits (m * unitsPerOne) 1 = a at *
  generalize nearestUnits (10 ^ k * unitsPerOne) 1 = b at *
  have hproduct : (2 ^ 53 - 1) ^ 2 * (beyond * unitsPerOne * unitsPerOne) ≤ 2 ^ 106 * (a * b) :=
    calc
      (2 ^ 53 - 1) ^ 2 * (beyond * unitsPerOne * unitsPerOne) ≤
          (2 ^ 53 - 1) ^ 2 * (m * 10 ^ k * unitsPerOne * unitsPerOne) :=
        Nat.mul_le_mul_left _ (Nat.mul_le_mul_right _ (Nat.mul_le_mul_right _ h))
      _ = (2 ^ 53 - 1) * (m * unitsPerOne) * ((2 ^ 53 - 1) * (10 ^ k * unitsPerOne)) := by ring
      _ ≤ 2 ^ 53 * a * (2 ^ 53 * b) := Nat.mul_le_mul hdigits hpower
      _ = 2 ^ 106 * (a * b) := by ring
  have hroom : 2 ^ 106 * (unitsPerOne * unitLimit) ≤
      (2 ^ 53 - 1) ^ 2 * (beyond * unitsPerOne * unitsPerOne) := by decide +kernel
  exact Binary64.not_isFinite_ofRatio Binary64.unitsPerOne_pos (by omega)

theorem ofNat_not_equal_zero (hm : m < UInt64.size) (hne : m ≠ 0) :
    (Binary64.ofNat m).equal 0 = false := by
  have hx : (ofRatio false (m * unitsPerOne) 1).isFinite = true := isFinite_whole hm
  unfold Binary64.ofNat
  unfold ofRatio at hx ⊢
  split at hx
  · rename_i hx'
    rw [dif_pos hx', Bool.eq_false_iff]
    intro hzero
    have hlow := (Binary64.nearestUnits_ones m).2
    rw [Binary64.equal_zero_iff.1 hzero] at hlow
    have hpos : 0 < m * unitsPerOne :=
      Nat.mul_pos (Nat.pos_of_ne_zero hne) Binary64.unitsPerOne_pos
    omega
  · cases hx

theorem isSome_scaled? (hm : m < UInt64.size) (h : (Decimal.mk m exponent).Below ceiling) :
    (scaled? (Binary64.ofNat m) exponent).isSome = true := by
  unfold scaled?
  cases exponent with
  | ofNat k =>
    have hle : m * 10 ^ k < ceiling := by simpa [Decimal.Below] using h
    dsimp only
    split
    · rename_i hk
      rw [if_pos (isFinite_product hm hk hle.le)]
      rfl
    · rename_i hk
      obtain ⟨e, he, hceiling⟩ : ∃ e, e ≤ 309 ∧ ceiling < Nat.pow 10 e :=
        ⟨309, Nat.le_refl _, by decide +kernel⟩
      have hpow : Nat.pow 10 e ≤ 10 ^ k := Nat.pow_le_pow_right (by decide) (by omega)
      obtain rfl : m = 0 := by
        by_contra hne
        have hlarge : 1 * 10 ^ k ≤ m * 10 ^ k :=
          Nat.mul_le_mul_right _ (Nat.pos_of_ne_zero hne)
        omega
      have hzero : (Binary64.ofNat 0).equal 0 = true := by decide +kernel
      rw [if_pos hzero]
      rfl
  | negSucc k =>
    dsimp only
    split
    · rfl
    · split <;> rfl

theorem scaled?_eq_none (hm : m < UInt64.size) (h : ¬ (Decimal.mk m exponent).Below beyond) :
    scaled? (Binary64.ofNat m) exponent = none := by
  have hsize : UInt64.size < beyond := by decide +kernel
  unfold scaled?
  cases exponent with
  | ofNat k =>
    have hle : beyond ≤ m * 10 ^ k := by simpa [Decimal.Below] using h
    dsimp only
    split
    · rename_i hk
      rw [if_neg (Bool.eq_false_iff.1 (not_isFinite_product hm hk hle))]
    · have hne : m ≠ 0 := by
        rintro rfl
        rw [Nat.zero_mul] at hle
        omega
      rw [if_neg (Bool.eq_false_iff.1 (ofNat_not_equal_zero hm hne))]
  | negSucc k =>
    have hbelow : m * 1 < beyond * 10 ^ (k + 1) :=
      calc
        m * 1 < beyond * 1 := by omega
        _ ≤ beyond * 10 ^ (k + 1) := Nat.mul_le_mul_left _ (Nat.pow_pos (by decide))
    exact absurd hbelow h

/-- Few enough digits in the exponent that it is taken for what it is. -/
def HasShortExponent (l : NumberLiteral) : Prop :=
  ∀ part ∈ l.exponent, Nat.ofDigitChars 10 part.2 0 < 2147483648

theorem magnitude?_of_short (h : l.HasShortExponent) :
    magnitude? digits shift l.exponent = scaled? (.ofNat digits) (shift + l.tens) := by
  unfold HasShortExponent at h
  unfold magnitude? tens
  cases he : l.exponent with
  | none => rw [Int.add_zero]
  | some part =>
    obtain ⟨negative, written⟩ := part
    have hn := h _ he
    dsimp only at hn ⊢
    rw [if_pos hn]
    cases negative <;> rfl

theorem magnitude?_of_long (h : ¬ l.HasShortExponent) :
    magnitude? digits shift l.exponent =
      if 0 < l.tens ∧ digits ≠ 0 then none else some 0 := by
  cases he : l.exponent with
  | none =>
    unfold HasShortExponent at h
    rw [he] at h
    exact absurd nofun h
  | some part =>
    obtain ⟨negative, written⟩ := part
    have hn : ¬ Nat.ofDigitChars 10 written 0 < 2147483648 := by
      intro hn
      apply h
      intro part hpart
      cases he.symm.trans hpart
      exact hn
    have htens : l.tens = if negative then -(Nat.ofDigitChars 10 written 0 : Int)
        else Nat.ofDigitChars 10 written 0 := by rw [tens, he]
    unfold magnitude?
    dsimp only
    rw [if_neg hn]
    cases negative with
    | true =>
      rw [if_pos rfl] at htens
      rw [if_pos (Or.inl rfl), if_neg fun hboth => by omega]
    | false =>
      rw [if_neg Bool.false_ne_true] at htens
      by_cases hzero : digits = 0
      · rw [if_pos (Or.inr hzero), if_neg fun hboth => hboth.2 hzero]
      · rw [if_neg (by simpa using hzero), if_pos ⟨by omega, hzero⟩]

/-- The digits of a literal that are taken in, with the place of the last of them. -/
def taken (l : NumberLiteral) : Decimal :=
  let whole := absorb 0 l.whole
  let all := absorb whole.1 l.fraction
  ⟨all.1, (l.whole.length - whole.2 : Nat) - all.2⟩

theorem taken_lt (l : NumberLiteral) : l.taken.digits < UInt64.size :=
  absorb_lt (absorb_lt (by decide) l.whole) l.fraction

/-- Two numbers that agree in their first digits, if these are not few, are near to each other. -/
theorem near_of_leading {n place x y : Nat} (hn : 10 ^ 18 ≤ n) (hx : x < (n + 1) * 10 ^ place)
    (hy : n * 10 ^ place ≤ y) : 10 ^ 18 * x ≤ (10 ^ 18 + 1) * y :=
  calc
    10 ^ 18 * x ≤ 10 ^ 18 * ((n + 1) * 10 ^ place) := Nat.mul_le_mul_left _ hx.le
    _ = 10 ^ 18 * (n + 1) * 10 ^ place := (Nat.mul_assoc ..).symm
    _ ≤ (10 ^ 18 + 1) * n * 10 ^ place := Nat.mul_le_mul_right _ (by omega)
    _ = (10 ^ 18 + 1) * (n * 10 ^ place) := Nat.mul_assoc ..
    _ ≤ (10 ^ 18 + 1) * y := Nat.mul_le_mul_left _ hy

theorem near_of_digits {n : Nat} {cs : List Char} (h : ∀ c ∈ cs, c.isDigit = true)
    (hn : cs ≠ [] → 10 ^ 18 ≤ n) :
    10 ^ 18 * (n * 10 ^ cs.length) ≤ (10 ^ 18 + 1) * Nat.ofDigitChars 10 cs n ∧
      10 ^ 18 * Nat.ofDigitChars 10 cs n ≤ (10 ^ 18 + 1) * (n * 10 ^ cs.length) := by
  by_cases hcs : cs = []
  · subst hcs
    rw [Nat.ofDigitChars_nil, List.length_nil]
    omega
  · have hlast : n * 10 ^ cs.length < (n + 1) * 10 ^ cs.length :=
      Nat.mul_lt_mul_of_pos_right (Nat.lt_succ_self n) (Nat.pow_pos (by decide))
    exact ⟨near_of_leading (hn hcs) hlast (Text.le_ofDigitChars n cs),
      near_of_leading (hn hcs) (Text.ofDigitChars_lt n h) (Nat.le_refl _)⟩

/-- The digits that are taken in, with zeros for the rest, are nearly all of the value: they begin
with the same digits, even where one of the fraction comes too early behind whole digits that are
left out. -/
theorem taken_near (h : l.WellFormed) : ∃ zeros : Nat,
    l.taken.exponent = zeros - l.fraction.length ∧
      10 ^ 18 * (l.taken.digits * 10 ^ zeros) ≤ (10 ^ 18 + 1) * l.numeral.digits ∧
      10 ^ 18 * l.numeral.digits ≤ (10 ^ 18 + 1) * (l.taken.digits * 10 ^ zeros) := by
  obtain ⟨_, hwhole⟩ := Text.isDigits_iff.1 h.whole.1
  obtain ⟨first, rest, hw, habsorb, hfull⟩ := absorb_split 0 hwhole
  obtain ⟨first', rest', hf, habsorb', hfull'⟩ :=
    absorb_split (Nat.ofDigitChars 10 first 0) h.fraction
  have hfraction := h.fraction
  unfold taken numeral
  rw [hw] at hwhole habsorb ⊢
  rw [hf] at hfraction habsorb' ⊢
  rw [habsorb]
  dsimp only
  rw [habsorb']
  refine ⟨rest.length + rest'.length, ?_, ?_⟩
  · simp only [List.length_append]
    omega
  simp only [Nat.ofDigitChars_append]
  generalize Nat.ofDigitChars 10 first 0 = n at *
  by_cases hrest : rest = []
  · subst hrest
    rw [Nat.ofDigitChars_nil, List.length_nil, Nat.zero_add]
    refine near_of_digits (fun c hc => hfraction c (List.mem_append_right _ hc)) ?_
    intro hne
    have hsize := hfull' hne
    change 18446744073709551616 ≤ _ at hsize
    omega
  · have hn : 10 ^ 18 ≤ n := by
      have hsize := hfull hrest
      change 18446744073709551616 ≤ _ at hsize
      omega
    have hplace : ∀ m, m * 10 ^ (rest ++ (first' ++ rest')).length =
        m * 10 ^ first'.length * 10 ^ (rest.length + rest'.length) := by
      intro m
      rw [Nat.mul_assoc, ← Nat.pow_add]
      simp only [List.length_append]
      congr 2
      omega
    have hall : ∀ c ∈ rest ++ (first' ++ rest'), c.isDigit = true := by
      intro c hc
      rcases List.mem_append.1 hc with hc | hc
      · exact hwhole c (List.mem_append_right _ hc)
      · exact hfraction c hc
    have hzeros : 0 < 10 ^ (rest.length + rest'.length) := Nat.pow_pos (by decide)
    have hlow := Text.le_ofDigitChars n first'
    have hhigh := Text.ofDigitChars_lt n fun c hc => hfraction c (List.mem_append_left rest' hc)
    have hlow' := Text.le_ofDigitChars n (rest ++ (first' ++ rest'))
    have hhigh' := Text.ofDigitChars_lt n hall
    rw [Nat.ofDigitChars_append, Nat.ofDigitChars_append] at hlow' hhigh'
    constructor
    · refine near_of_leading hn ?_ hlow'
      rw [hplace]
      exact Nat.mul_lt_mul_of_pos_right hhigh hzeros
    · refine near_of_leading hn hhigh' ?_
      rw [hplace]
      exact Nat.mul_le_mul_right _ hlow

theorem below_taken {bound bound' : Nat} (h : l.WellFormed)
    (hroom : (10 ^ 18 + 1) * bound ≤ 10 ^ 18 * bound') :
    (l.numeral.Below bound →
      (Decimal.mk l.taken.digits (l.taken.exponent + l.tens)).Below bound') ∧
    ((Decimal.mk l.taken.digits (l.taken.exponent + l.tens)).Below bound →
      l.numeral.Below bound') := by
  obtain ⟨zeros, hexponent, hlow, hhigh⟩ := taken_near h
  have hplace : l.taken.exponent + l.tens = l.numeral.exponent + zeros := by
    change l.taken.exponent + l.tens = l.tens - l.fraction.length + zeros
    omega
  rw [hplace, ← Decimal.below_shift, ← Decimal.below_shift]
  exact ⟨fun hbelow => hbelow.near hlow hroom,
    fun hbelow => Decimal.Below.near hbelow hhigh hroom⟩

/-- A literal is refused if its magnitude is, whole numbers included. -/
theorem value?_eq_none : l.value? = none ↔
    magnitude? l.taken.digits l.taken.exponent l.exponent = none := by
  have hdigits := absorb_lt (n := 0) (by decide) l.whole
  unfold value? taken
  cases hfirst : absorb 0 l.whole with
  | mk whole count =>
  rw [hfirst] at hdigits
  dsimp only at hdigits ⊢
  have hplain : l.fraction = [] → l.exponent = none → l.whole.length - count = 0 →
      magnitude? (absorb whole l.fraction).1 ((l.whole.length - count : Nat) -
        (absorb whole l.fraction).2) l.exponent ≠ none := by
    intro hfraction hexponent hshift
    rw [hfraction, hexponent, hshift]
    have hbelow : (Decimal.mk whole 0).Below ceiling := by
      have hsize : UInt64.size ≤ ceiling := by decide +kernel
      change whole * 1 < ceiling * 1
      omega
    have hscaled : magnitude? whole 0 none = scaled? (.ofNat whole) 0 := rfl
    change magnitude? whole 0 none ≠ none
    rw [hscaled]
    exact Option.isSome_iff_ne_none.1 (isSome_scaled? hdigits hbelow)
  split
  · rename_i hguard
    obtain ⟨hfraction, hexponent, hshift, _⟩ := hguard
    simp [hplain hfraction hexponent hshift]
  · split
    · rename_i hguard
      obtain ⟨hfraction, hexponent, hshift, _⟩ := hguard
      simp [hplain hfraction hexponent hshift]
    · exact Option.map_eq_none_iff

/-- What is refused of the literals with a short exponent: nothing below a bound, and everything
from a second one on. Between them the digits, the power of ten and the product are each rounded,
so that a number there can be refused although it is not beyond the greatest one. -/
theorem value?_of_short (h : l.WellFormed) (hshort : l.HasShortExponent) :
    (l.numeral.Below acceptedBelow → l.value? ≠ none) ∧
      (¬ l.numeral.Below refusedFrom → l.value? = none) := by
  have haccepted : (10 ^ 18 + 1) * acceptedBelow ≤ 10 ^ 18 * ceiling := by decide +kernel
  have hrefused : (10 ^ 18 + 1) * beyond ≤ 10 ^ 18 * refusedFrom := by decide +kernel
  rw [Ne, value?_eq_none, magnitude?_of_short hshort]
  constructor
  · intro hbelow
    exact Option.isSome_iff_ne_none.1
      (isSome_scaled? l.taken_lt ((below_taken h haccepted).1 hbelow))
  · intro hbeyond
    exact scaled?_eq_none l.taken_lt fun hbelow => hbeyond ((below_taken h hrefused).2 hbelow)

theorem value?_eq_magnitude? (h : l.exponent ≠ none) :
    l.value? = (magnitude? l.taken.digits l.taken.exponent l.exponent).map fun x =>
      .decimal (if l.negative then -x else x) := by
  unfold value? taken
  dsimp only
  rw [if_neg fun hguard => h hguard.2.1, if_neg fun hguard => h hguard.2.1]

/-- An exponent that is not short leaves zero, or an overflow. -/
theorem value?_of_long (h : l.WellFormed) (hlong : ¬ l.HasShortExponent) :
    l.value? = if 0 < l.tens ∧ l.numeral.digits ≠ 0 then none
      else some (.decimal (.zero l.negative)) := by
  have hexponent : l.exponent ≠ none := by
    intro hnone
    apply hlong
    unfold HasShortExponent
    rw [hnone]
    exact nofun
  have hzero : (0 < l.tens ∧ l.taken.digits ≠ 0) ↔ (0 < l.tens ∧ l.numeral.digits ≠ 0) := by
    obtain ⟨zeros, _, hlow, hhigh⟩ := taken_near h
    have hten : 0 < 10 ^ zeros := Nat.pow_pos (by decide)
    have hdigits : l.taken.digits * 10 ^ zeros = 0 ↔ l.taken.digits = 0 := by
      rw [Nat.mul_eq_zero, or_iff_left hten.ne']
    omega
  have hsign : (if l.negative then -0 else 0 : Binary64) = .zero l.negative := by
    cases l.negative <;> decide +kernel
  rw [value?_eq_magnitude? hexponent, magnitude?_of_long hlong]
  by_cases hover : 0 < l.tens ∧ l.numeral.digits ≠ 0
  · rw [if_pos (hzero.2 hover), if_pos hover, Option.map_none]
  · rw [if_neg (mt hzero.1 hover), if_neg hover, Option.map_some, hsign]

end NumberLiteral

end ProbeCycle
