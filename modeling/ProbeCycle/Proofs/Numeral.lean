import Mathlib.Data.List.TakeWhile
import ProbeCycle.Word

namespace ProbeCycle

namespace Text

theorem isDigits_iff {cs : List Char} :
    isDigits cs = true ↔ cs ≠ [] ∧ ∀ c ∈ cs, c.isDigit = true := by
  simp [isDigits]

theorem isDigits_append {cs ds : List Char} (hc : isDigits cs = true)
    (hd : ∀ d ∈ ds, d.isDigit = true) : isDigits (cs ++ ds) = true := by
  obtain ⟨hne, hall⟩ := isDigits_iff.1 hc
  refine isDigits_iff.2 ⟨by simp [hne], ?_⟩
  intro c h
  rcases List.mem_append.1 h with h | h
  · exact hall c h
  · exact hd c h

/-- Digits, and after them possibly a point with digits behind it. -/
inductive Unsigned : List Char → Prop where
  | whole {ds : List Char} (h : isDigits ds = true) : Unsigned ds
  | point {ds es : List Char} (h : isDigits ds = true) (h' : isDigits es = true) :
    Unsigned (ds ++ '.' :: es)

/-- A numeral without an exponent. -/
inductive Plain : List Char → Prop where
  | positive {cs : List Char} (h : Unsigned cs) : Plain cs
  | negative {cs : List Char} (h : Unsigned cs) : Plain ('-' :: cs)

theorem plain_nat (n : Nat) : Plain (toString n).toList := by
  rw [Nat.toString_eq_ofList_toDigits, String.toList_ofList]
  exact .positive (.whole (isDigits_toDigits n))

/-- The characters of plain numerals. -/
def isNumeric (c : Char) : Bool := c.isDigit || c == '.' || c == '-'

theorem isNumeric_of_isDigits {cs : List Char} (h : isDigits cs = true) :
    ∀ c ∈ cs, isNumeric c = true := by
  intro c hc
  simp [isNumeric, (isDigits_iff.1 h).2 c hc]

theorem Unsigned.isNumeric {cs : List Char} (h : Unsigned cs) :
    ∀ c ∈ cs, isNumeric c = true := by
  cases h with
  | whole h => exact isNumeric_of_isDigits h
  | point h h' =>
    intro c hc
    rcases List.mem_append.1 hc with hc | hc
    · exact isNumeric_of_isDigits h c hc
    · rcases List.mem_cons.1 hc with rfl | hc
      · rfl
      · exact isNumeric_of_isDigits h' c hc

theorem Plain.isNumeric {cs : List Char} (h : Plain cs) : ∀ c ∈ cs, isNumeric c = true := by
  cases h with
  | positive h => exact h.isNumeric
  | negative h =>
    intro c hc
    rcases List.mem_cons.1 hc with rfl | hc
    · rfl
    · exact h.isNumeric c hc

end Text

open Text (isDigits Unsigned Plain)

namespace Decimal

theorem ne_zero_of_units {d : Decimal} (h : d.units ≠ 0) : d.digits ≠ 0 := by
  intro hd
  exact h (by simp [units, hd])

theorem isDigits_significant {d : Decimal} (h : d.digits ≠ 0) :
    isDigits d.significant.1 = true := by
  have hall : ∀ c ∈ d.significant.1, c.isDigit = true := by
    intro c hc
    rw [significant, List.mem_reverse] at hc
    have hm := List.mem_reverse.1 ((List.dropWhile_sublist _).subset hc)
    exact (Text.isDigits_iff.1 (Text.isDigits_toDigits d.digits)).2 c hm
  refine Text.isDigits_iff.2 ⟨?_, hall⟩
  intro he
  -- Digits that are all zeros spell the number zero.
  rw [significant, List.reverse_eq_nil_iff, List.dropWhile_eq_nil_iff] at he
  have hzeros : Nat.toDigits 10 d.digits =
      List.replicate (Nat.toDigits 10 d.digits).length '0' := by
    refine List.eq_replicate_iff.2 ⟨rfl, ?_⟩
    intro c hc
    exact eq_of_beq (he c (List.mem_reverse.2 hc))
  have hvalue := Nat.ofDigitChars_ten_toDigits (n := d.digits)
  rw [hzeros, Nat.ofDigitChars_replicate_zero, Nat.mul_zero] at hvalue
  exact h hvalue.symm

theorem unsigned_positional {digits : List Char} (h : isDigits digits = true) (exponent : Int) :
    Unsigned (positional digits exponent) := by
  obtain ⟨hne, hall⟩ := Text.isDigits_iff.1 h
  have hzeros : ∀ k, ∀ c ∈ List.replicate k '0', c.isDigit = true := by
    intro k c hc
    rw [List.eq_of_mem_replicate hc]
    rfl
  unfold positional
  cases exponent with
  | ofNat k => exact .whole (Text.isDigits_append h (hzeros k))
  | negSucc k =>
    dsimp only
    split
    · rename_i hk
      refine .point (Text.isDigits_iff.2 ⟨?_, ?_⟩) (Text.isDigits_iff.2 ⟨?_, ?_⟩)
      · intro he
        rw [List.take_eq_nil_iff] at he
        rcases he with he | he
        · omega
        · exact hne he
      · exact fun c hc => hall c (List.mem_of_mem_take hc)
      · intro he
        rw [List.drop_eq_nil_iff] at he
        omega
      · exact fun c hc => hall c (List.mem_of_mem_drop hc)
    · have hzero : isDigits ['0'] = true := rfl
      refine .point hzero (Text.isDigits_iff.2 ⟨by simp [hne], ?_⟩)
      intro c hc
      rcases List.mem_append.1 hc with hc | hc
      · exact hzeros _ c hc
      · exact hall c hc

end Decimal

namespace Binary64

theorem shortest_ne_zero (tie : Tie) {units : Nat} (h : units ≠ 0) :
    (shortest tie units).digits ≠ 0 := by
  unfold shortest
  cases hs : (List.range 17).findSome? fun i => numeralOfLength? tie units (i + 1) with
  | none =>
    have hpow : ∀ n, Nat.pow 5 n ≠ 0 := fun n => Nat.ne_of_gt (Nat.pow_pos (by decide))
    exact Nat.mul_ne_zero h (hpow 1074)
  | some d =>
    obtain ⟨i, _, hd⟩ := List.exists_of_findSome?_eq_some hs
    have hunits : d.units = units := units_of_readingBack? hd
    exact Decimal.ne_zero_of_units (hunits ▸ h)

theorem unsigned_magnitudeText (units : Nat) : Unsigned (magnitudeText units) := by
  unfold magnitudeText
  split
  · exact .whole rfl
  · rename_i h
    exact Decimal.unsigned_positional (Decimal.isDigits_significant (shortest_ne_zero .up h)) _

/-- A finite number is written as a plain numeral. -/
theorem plain_text {x : Binary64} (h : x.isFinite = true) : Plain x.text.toList := by
  cases x with
  | finite negative units representable =>
    cases negative with
    | false => exact .positive (by simpa [text] using unsigned_magnitudeText units)
    | true => simpa [text] using Plain.negative (unsigned_magnitudeText units)
  | _ => simp [isFinite] at h

end Binary64

theorem Word.plain_number {x : Binary64} (h : x.isFinite = true) :
    Plain (Word.number x).toList := by
  unfold Word.number
  split
  · exact .positive (.whole rfl)
  · exact Binary64.plain_text h

end ProbeCycle
