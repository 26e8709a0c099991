import ProbeCycle.Json.Record
import ProbeCycle.Proofs.Json.RoundTrip

namespace ProbeCycle

theorem Text.le_ofDigitChars (n : Nat) (cs : List Char) :
    n * 10 ^ cs.length ≤ Nat.ofDigitChars 10 cs n := by
  rw [Nat.ofDigitChars_eq_ofDigitChars_zero, Nat.mul_comm]
  exact Nat.le_add_right _ _

namespace NumberLiteral

variable {l : NumberLiteral}

/-- Digits that spell a number of 64 bits are all taken in. -/
theorem absorb_eq {cs : List Char} {init : Nat}
    (h : Nat.ofDigitChars 10 cs init < UInt64.size) :
    absorb init cs = (Nat.ofDigitChars 10 cs init, cs.length) := by
  induction cs generalizing init with
  | nil => rfl
  | cons c cs ih =>
    rw [Nat.ofDigitChars_cons] at h
    have hnext : init * 10 + (c.toNat - '0'.toNat) < UInt64.size := by
      rw [Nat.mul_comm]
      exact Nat.lt_of_le_of_lt
        (Nat.le_trans (Nat.le_mul_of_pos_right _ (Nat.pow_pos (by decide)))
          (Text.le_ofDigitChars _ cs)) h
    rw [absorb, if_pos hnext, Nat.mul_comm init, ih h, Nat.ofDigitChars_cons]
    rfl

theorem value?_ofInt_natural {n : Nat} (h : n < UInt64.size) :
    (ofInt n).value? = some (.natural (.ofNat n)) := by
  have habsorb : absorb 0 (Nat.toDigits 10 n) = (n, (Nat.toDigits 10 n).length) := by
    rw [absorb_eq (by rwa [Nat.ofDigitChars_ten_toDigits]), Nat.ofDigitChars_ten_toDigits]
  have hnegative : decide ((n : Int) < 0) = false := by simp
  simp [value?, ofInt, habsorb, hnegative]

theorem value?_ofInt_negative {n : Nat} (h : 0 < n) (hn : n ≤ 9223372036854775808) :
    (ofInt (-n)).value? = some (.negative (.ofInt (-n))) := by
  have hsize : n < UInt64.size := Nat.lt_of_le_of_lt hn (by decide)
  have habsorb : absorb 0 (Nat.toDigits 10 n) = (n, (Nat.toDigits 10 n).length) := by
    rw [absorb_eq (by rwa [Nat.ofDigitChars_ten_toDigits]), Nat.ofDigitChars_ten_toDigits]
  simp [value?, ofInt, habsorb, h, hn]

theorem wellFormed_ofInt (n : Int) : (ofInt n).WellFormed where
  whole := Text.isWhole_toDigits n.natAbs
  fraction := by simp [ofInt]
  exponent := by simp [ofInt]

/-- A literal with a point or an exponent. -/
def IsDecimal (l : NumberLiteral) : Prop := l.fraction ≠ [] ∨ l.exponent ≠ none

theorem value?_of_isDecimal {n : Number} (h : l.IsDecimal) (hn : l.value? = some n) :
    ∃ x, n = .decimal x := by
  have hguard : ¬ (l.fraction = [] ∧ l.exponent = none) := by
    rintro ⟨hf, he⟩
    exact h.elim (absurd hf) (absurd he)
  unfold value? at hn
  dsimp only at hn
  rw [if_neg (fun hc => hguard ⟨hc.1, hc.2.1⟩), if_neg (fun hc => hguard ⟨hc.1, hc.2.1⟩)] at hn
  obtain ⟨x, _, hx⟩ := Option.map_eq_some_iff.1 hn
  exact ⟨_, hx.symm⟩

/-- A point is set as for plain numerals, with a zero behind it if nothing else is there. -/
theorem wellFormed_parts (negative : Bool) {digits : List Char}
    (h : Text.isDigits digits = true) (hz : digits.head? ≠ some '0') (exponent : Int) :
    (mk negative (Decimal.parts digits exponent).1
      (if (Decimal.parts digits exponent).2 = [] then ['0'] else (Decimal.parts digits exponent).2)
      none).WellFormed := by
  refine ⟨Decimal.isWhole_parts h hz exponent, ?_, nofun⟩
  intro c hc
  dsimp only at hc
  split at hc
  · rw [List.mem_singleton.1 hc]
    rfl
  · exact Decimal.isDigit_of_mem_parts h exponent c hc

theorem wellFormed_scientific (negative : Bool) {digits : List Char}
    (h : Text.isDigits digits = true) (hz : digits.head? ≠ some '0') (first : Int) :
    (mk negative (digits.take 1) (digits.drop 1)
      (some (first < 0, Nat.toDigits 10 first.natAbs))).WellFormed := by
  obtain ⟨hne, hall⟩ := Text.isDigits_iff.1 h
  refine ⟨Text.isWhole_of_head? (Text.isDigits_iff.2 ⟨?_, ?_⟩) ?_, ?_, ?_⟩
  · simpa [List.take_eq_nil_iff] using hne
  · exact fun c hc => hall c (List.mem_of_mem_take hc)
  · rwa [List.head?_take, if_neg (by decide)]
  · exact fun c hc => hall c (List.mem_of_mem_drop hc)
  · intro negative digits he
    cases he
    exact Text.isDigits_toDigits _

theorem ofMagnitude_eq {units : Nat} (negative : Bool) (h : units ≠ 0) :
    let numeral := (Binary64.shortest .even units).significant
    let first : Int := numeral.2 + numeral.1.length - 1
    ofMagnitude negative units =
      if -5 ≤ first ∧ first ≤ 15 then
        mk negative (Decimal.parts numeral.1 numeral.2).1
          (if (Decimal.parts numeral.1 numeral.2).2 = [] then ['0']
            else (Decimal.parts numeral.1 numeral.2).2) none
      else mk negative (numeral.1.take 1) (numeral.1.drop 1)
        (some (first < 0, Nat.toDigits 10 first.natAbs)) := by
  have hne := (Text.isDigits_iff.1
    (Decimal.isDigits_significant (Binary64.shortest_ne_zero .even h))).1
  unfold ofMagnitude
  rw [if_neg h]
  revert hne
  generalize (Binary64.shortest .even units).significant = numeral
  obtain ⟨digits, last⟩ := numeral
  intro hne
  dsimp only
  split
  · cases last with
    | ofNat k => rfl
    | negSucc k =>
      unfold Decimal.parts
      dsimp only
      split
      · rename_i hk
        have hdrop : digits.drop (digits.length - (k + 1)) ≠ [] := by
          rw [Ne, List.drop_eq_nil_iff]
          omega
        rw [if_neg hdrop]
      · rw [if_neg (by simp [hne])]
  · rfl

/-- A finite number is written with a point or an exponent, so it is read as a decimal number if not
always as the same. -/
theorem wellFormed_ofMagnitude (negative : Bool) (units : Nat) :
    (ofMagnitude negative units).WellFormed ∧ (ofMagnitude negative units).IsDecimal := by
  by_cases hu : units = 0
  · rw [ofMagnitude, if_pos hu]
    exact ⟨⟨⟨rfl, fun _ => rfl⟩, by simp, nofun⟩, Or.inl (by simp)⟩
  · have hne := Binary64.shortest_ne_zero .even hu
    have hdigits := Decimal.isDigits_significant hne
    have hz := Decimal.head?_significant hne
    rw [ofMagnitude_eq negative hu]
    split
    · refine ⟨wellFormed_parts negative hdigits hz _, Or.inl ?_⟩
      dsimp only
      split
      · simp
      · assumption
    · exact ⟨wellFormed_scientific negative hdigits hz _, Or.inr (by simp)⟩

end NumberLiteral

theorem Json.writable_ofInt (n : Int) : (Json.ofInt n).Writable :=
  .number (NumberLiteral.wellFormed_ofInt n)

theorem Json.writable_ofBinary64 (x : Binary64) : (Json.ofBinary64 x).Writable := by
  cases x with
  | finite negative units h => exact .number (NumberLiteral.wellFormed_ofMagnitude negative units).1
  | _ => exact .null

namespace Binary64

variable {x : Binary64}

/-- The number is read as it was written; reading decimal literals is not exact for all. -/
def Survives (x : Binary64) : Prop :=
  (Json.read? (Json.ofBinary64 x).toCompact).bind Json.asBinary64? = some x

instance (x : Binary64) : Decidable x.Survives :=
  inferInstanceAs (Decidable (_ = _))

theorem survives_iff : x.Survives ↔ Json.asBinary64? (Json.ofBinary64 x) = some x := by
  rw [Survives, Json.toCompact, Json.read?_toText (Json.writable_ofBinary64 x), Option.bind_some]

theorem Survives.isFinite (h : x.Survives) : x.isFinite = true := by
  rw [survives_iff] at h
  cases x with
  | finite negative units hu => rfl
  | _ => cases h

theorem value?_of_survives {negative : Bool} {units : Nat} {hu : Representable units} :
    (finite negative units hu).Survives ↔
      (NumberLiteral.ofMagnitude negative units).value? =
        some (.decimal (finite negative units hu)) := by
  rw [survives_iff]
  change (NumberLiteral.ofMagnitude negative units).value?.map Number.toBinary64 = _ ↔ _
  constructor
  · intro h
    obtain ⟨n, hn, hx⟩ := Option.map_eq_some_iff.1 h
    obtain ⟨y, rfl⟩ :=
      NumberLiteral.value?_of_isDecimal (NumberLiteral.wellFormed_ofMagnitude negative units).2 hn
    rw [hn]
    exact congrArg (fun y => some (Number.decimal y)) hx
  · intro h
    rw [h]
    rfl

end Binary64

end ProbeCycle
