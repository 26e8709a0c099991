import ProbeCycle.Proofs.Json.Finite
import ProbeCycle.Proofs.Json.Number
import ProbeCycle.Proofs.Text.Case

namespace ProbeCycle

namespace Text

variable {cs : List Char}

theorem digit_le {c : Char} (h : c.isDigit = true) : c.toNat - '0'.toNat ≤ 9 := by
  obtain ⟨_, hhigh⟩ := isDigit_iff_toNat.1 h
  change c.toNat - 48 ≤ 9
  omega

/-- Digits behind a number add less than one in its last place. -/
theorem ofDigitChars_lt (n : Nat) (h : ∀ c ∈ cs, c.isDigit = true) :
    Nat.ofDigitChars 10 cs n < (n + 1) * 10 ^ cs.length := by
  induction cs generalizing n with
  | nil => exact (Nat.mul_one (n + 1)).symm ▸ Nat.lt_succ_self n
  | cons c cs ih =>
    obtain ⟨hc, hcs⟩ := List.forall_mem_cons.1 h
    have hdigit := digit_le hc
    rw [Nat.ofDigitChars_cons]
    calc
      Nat.ofDigitChars 10 cs (10 * n + (c.toNat - '0'.toNat)) <
          (10 * n + (c.toNat - '0'.toNat) + 1) * 10 ^ cs.length := ih _ hcs
      _ ≤ (n + 1) * 10 * 10 ^ cs.length := Nat.mul_le_mul_right _ (by omega)
      _ = (n + 1) * 10 ^ (c :: cs).length := by
        rw [List.length_cons, Nat.pow_succ', Nat.mul_assoc]

end Text

namespace NumberLiteral

variable {l : NumberLiteral} {n : UInt64} {cs : List Char}

/-- The digits that are taken in come first, and the next one would not fit. -/
theorem absorb_split (init : Nat) (h : ∀ c ∈ cs, c.isDigit = true) :
    ∃ taken rest, cs = taken ++ rest ∧
      absorb init cs = (Nat.ofDigitChars 10 taken init, taken.length) ∧
      (rest ≠ [] → UInt64.size ≤ Nat.ofDigitChars 10 taken init * 10 + 9) := by
  induction cs generalizing init with
  | nil => exact ⟨[], [], rfl, rfl, fun hne => absurd rfl hne⟩
  | cons c cs ih =>
    obtain ⟨hc, hcs⟩ := List.forall_mem_cons.1 h
    by_cases hnext : init * 10 + (c.toNat - '0'.toNat) < UInt64.size
    · obtain ⟨taken, rest, rfl, habsorb, hrest⟩ := ih (init * 10 + (c.toNat - '0'.toNat)) hcs
      refine ⟨c :: taken, rest, rfl, ?_, ?_⟩
      · rw [absorb, if_pos hnext, habsorb, Nat.ofDigitChars_cons, Nat.mul_comm init]
        rfl
      · rwa [Nat.ofDigitChars_cons, Nat.mul_comm 10 init]
    · refine ⟨[], c :: cs, rfl, by rw [absorb, if_neg hnext]; rfl, fun _ => ?_⟩
      have hdigit := Text.digit_le hc
      rw [Nat.ofDigitChars_nil]
      omega

/-- Without sign, point and exponent. -/
def IsPlain (l : NumberLiteral) : Prop :=
  l.negative = false ∧ l.fraction = [] ∧ l.exponent = none

theorem value?_eq_natural (h : l.WellFormed) :
    l.value? = some (.natural n) ↔ l.IsPlain ∧ Nat.ofDigitChars 10 l.whole 0 = n.toNat := by
  obtain ⟨hne, hall⟩ := Text.isDigits_iff.1 h.whole.1
  constructor
  · intro hn
    obtain ⟨taken, rest, hwhole, habsorb, _⟩ := absorb_split 0 hall
    have hlt := absorb_lt (n := 0) (by decide) l.whole
    unfold value? at hn
    rw [habsorb] at hn hlt
    dsimp only at hn hlt
    split at hn
    · rename_i hguard
      obtain ⟨hfraction, hexponent, hshift, hnegative⟩ := hguard
      have hrest : rest = [] := by
        rw [hwhole, List.length_append] at hshift
        exact List.length_eq_zero_iff.1 (by omega)
      rw [hrest, List.append_nil] at hwhole
      obtain rfl := Number.natural.inj (Option.some.inj hn)
      rw [hwhole]
      exact ⟨⟨by simpa using hnegative, hfraction, hexponent⟩,
        (UInt64.toNat_ofNat'.trans (Nat.mod_eq_of_lt hlt)).symm⟩
    · split at hn
      · cases hn
      · obtain ⟨x, _, hx⟩ := Option.map_eq_some_iff.1 hn
        cases hx
  · rintro ⟨⟨hnegative, hfraction, hexponent⟩, hvalue⟩
    have habsorb := absorb_eq (hvalue ▸ n.toNat_lt : Nat.ofDigitChars 10 l.whole 0 < UInt64.size)
    unfold value?
    rw [habsorb]
    simp [hfraction, hexponent, hnegative, hvalue]

/-- Plain literals are spelled by their digits alone. -/
theorem Spells.isDigits_iff (h : l.Spells cs) : Text.isDigits cs = true ↔ l.IsPlain := by
  cases h with
  | @parts negative whole fraction written exponent hwhole hfraction hexponent =>
  obtain ⟨hne, hall⟩ := Text.isDigits_iff.1 hwhole.1
  rw [Text.isDigits_iff]
  constructor
  · rintro ⟨_, hdigits⟩
    refine ⟨?_, ?_, ?_⟩
    · cases negative with
      | false => rfl
      | true => exact absurd (hdigits '-' (by simp)) (by decide)
    · by_contra hf
      exact absurd (hdigits '.' (by simp [Decimal.written, show fraction ≠ [] from hf])) (by decide)
    · cases hexponent with
      | none => rfl
      | unsigned hmark | signed _ hmark =>
        have hdigit := hdigits _ (List.mem_append_right _ (List.mem_append_right _
          (List.mem_cons_self ..)))
        rcases hmark with rfl | rfl <;> cases hdigit
  · rintro ⟨hnegative, hf, he⟩
    dsimp only at hnegative hf he
    subst hnegative hf he
    cases hexponent
    simpa [Decimal.written, hne] using hall

theorem Spells.plain {whole : List Char} (h : Text.IsWhole whole) :
    Spells ⟨false, whole, [], none⟩ whole := by
  simpa [Decimal.written] using Spells.parts false h (List.forall_mem_nil _) .none

theorem Spells.eq_whole (h : l.Spells cs) (hl : l.IsPlain) : cs = l.whole := by
  cases h with
  | parts negative _ _ hexponent =>
  obtain ⟨hnegative, hf, he⟩ := hl
  dsimp only at hnegative hf he
  subst hnegative hf he
  cases hexponent
  simp [Decimal.written]

theorem Spells.wellFormed (h : l.Spells cs) : l.WellFormed := by
  cases h with
  | parts negative hwhole hfraction hexponent =>
  refine ⟨hwhole, hfraction, ?_⟩
  rintro negative digits rfl
  cases hexponent <;> assumption

/-- The exponent of a literal as a number. -/
def tens (l : NumberLiteral) : Int :=
  match l.exponent with
  | none => 0
  | some (negative, digits) =>
    let n := Nat.ofDigitChars 10 digits 0
    if negative then -n else n

/-- The numeral of a literal, apart from its sign. -/
def numeral (l : NumberLiteral) : Decimal :=
  ⟨Nat.ofDigitChars 10 (l.whole ++ l.fraction) 0, l.tens - l.fraction.length⟩

end NumberLiteral

end ProbeCycle
