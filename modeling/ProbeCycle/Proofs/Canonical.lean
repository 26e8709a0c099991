import ProbeCycle.Proofs.Shortest

namespace ProbeCycle

namespace Text

/-- A plain decimal without superfluous zeros: none in front of its whole part, and none at the end
of what is behind its point. -/
inductive Canonical : List Char → Prop where
  | parts (negative : Bool) {whole fraction : List Char} (hw : IsWhole whole)
    (hf : ∀ c ∈ fraction, c.isDigit = true) (hz : fraction.getLast? ≠ some '0') :
    Canonical ((if negative then ['-'] else []) ++ Decimal.written whole fraction)

/-- The digits of a numeral without the zeros before and behind the others. -/
def significant (cs : List Char) : List Char :=
  (((cs.filter Char.isDigit).dropWhile (· == '0')).reverse.dropWhile (· == '0')).reverse

theorem dropWhile_zeros {ds : List Char} (h : ds.head? ≠ some '0') (k : Nat) :
    (List.replicate k '0' ++ ds).dropWhile (· == '0') = ds := by
  rw [List.dropWhile_append_of_pos (by simp)]
  cases ds with
  | nil => rfl
  | cons d ds => exact List.dropWhile_cons_of_neg (by simpa using h)

theorem significant_padded {cs ds : List Char} {k l : Nat}
    (h : cs.filter Char.isDigit = List.replicate k '0' ++ ds ++ List.replicate l '0')
    (hhead : ds.head? ≠ some '0') (hlast : ds.getLast? ≠ some '0') (hne : ds ≠ []) :
    significant cs = ds := by
  have hstart : (ds ++ List.replicate l '0').head? ≠ some '0' := by
    rwa [List.head?_append_of_ne_nil _ hne]
  have hend : ds.reverse.head? ≠ some '0' := by rwa [List.head?_reverse]
  rw [significant, h, List.append_assoc, dropWhile_zeros hstart, List.reverse_append,
    List.reverse_replicate, dropWhile_zeros hend, List.reverse_reverse]

theorem filter_written {whole fraction : List Char} (hw : isDigits whole = true)
    (hf : ∀ c ∈ fraction, c.isDigit = true) (negative : Bool) :
    ((if negative then ['-'] else []) ++ Decimal.written whole fraction).filter Char.isDigit =
      whole ++ fraction := by
  have hwhole := List.filter_eq_self.2 (isDigits_iff.1 hw).2
  have hfraction := List.filter_eq_self.2 hf
  have hsign : (if negative then ['-'] else []).filter Char.isDigit = [] := by
    cases negative <;> rfl
  rw [List.filter_append, hsign, List.nil_append, Decimal.written, List.filter_append, hwhole]
  split
  · rename_i hempty
    rw [hempty]
    rfl
  · rw [List.filter_cons_of_neg (by decide), hfraction]

end Text

namespace Decimal

variable {digits : List Char}

theorem getLast?_parts (hne : digits ≠ []) (hlast : digits.getLast? ≠ some '0') (exponent : Int) :
    (parts digits exponent).2.getLast? ≠ some '0' := by
  unfold parts
  cases exponent with
  | ofNat k => simp
  | negSucc k =>
    dsimp only
    split
    · rw [List.getLast?_drop]
      split
      · simp
      · exact hlast
    · rwa [List.getLast?_append_of_ne_nil _ hne]

theorem append_parts (digits : List Char) (exponent : Int) : ∃ k l,
    (parts digits exponent).1 ++ (parts digits exponent).2 =
      List.replicate k '0' ++ digits ++ List.replicate l '0' := by
  unfold parts
  cases exponent with
  | ofNat k => exact ⟨0, k, by simp⟩
  | negSucc k =>
    dsimp only
    split
    · exact ⟨0, 0, by simp⟩
    · exact ⟨k + 1 - digits.length + 1, 0, by simp [List.replicate_succ]⟩

end Decimal

namespace Binary64

variable {x y : Binary64} {units : Nat}

theorem magnitudeText_eq (hz : units ≠ 0) : magnitudeText units =
    Decimal.positional (shortest .up units).significant.1 (shortest .up units).significant.2 := by
  rw [magnitudeText, if_neg hz]

/-- The digits of the shortest numeral stand in the text of a number, with zeros around them. -/
theorem canonical_finite (negative : Bool) (hu : Representable units) (hz : units ≠ 0) :
    Text.Canonical (text (.finite negative units hu)).toList ∧
      Text.significant (text (.finite negative units hu)).toList =
        (shortest .up units).significant.1 := by
  have hne := shortest_ne_zero .up hz
  have hdigits := Decimal.isDigits_significant hne
  have hempty := (Text.isDigits_iff.1 hdigits).1
  have hhead := Decimal.head?_significant hne
  have hlast := Decimal.getLast?_significant (shortest .up units)
  have hwhole := Decimal.isWhole_parts hdigits hhead (shortest .up units).significant.2
  have hfraction := Decimal.isDigit_of_mem_parts hdigits (shortest .up units).significant.2
  rw [toList_text, magnitudeText_eq hz, Decimal.positional_eq_written hempty]
  constructor
  · exact .parts negative hwhole hfraction (Decimal.getLast?_parts hempty hlast _)
  · obtain ⟨k, l, happend⟩ := Decimal.append_parts (shortest .up units).significant.1
      (shortest .up units).significant.2
    exact Text.significant_padded ((Text.filter_written hwhole.1 hfraction negative).trans happend)
      hhead hlast hempty

theorem eq_zero_of_equal (hx : x.isFinite = true) (h : x.equal 0 = true) : x = 0 ∨ x = -0 := by
  obtain ⟨hz, hzero⟩ := zero_eq
  cases x with
  | finite negative units hu =>
    obtain rfl := equal_zero_iff.1 h
    rw [hzero, neg_finite]
    cases negative with
    | false => exact Or.inl rfl
    | true => exact Or.inr rfl
  | _ => simp [isFinite] at hx

/-- Numbers that are equal differ in the sign of a zero only. -/
theorem equal_iff_eq_or_zeros (hx : x.isFinite = true) (hy : y.isFinite = true) :
    x.equal y = true ↔ x = y ∨ x = 0 ∧ y = -0 ∨ x = -0 ∧ y = 0 := by
  constructor
  · intro h
    cases hzero : x.equal 0 with
    | false => exact Or.inl (eq_of_equal hx hy h hzero)
    | true =>
      have hzero' := equal_trans (equal_symm h) hzero
      rcases eq_zero_of_equal hx hzero with hx | hx <;>
        rcases eq_zero_of_equal hy hzero' with hy | hy
      · exact Or.inl (hx.trans hy.symm)
      · exact Or.inr (Or.inl ⟨hx, hy⟩)
      · exact Or.inr (Or.inr ⟨hx, hy⟩)
      · exact Or.inl (hx.trans hy.symm)
  · intro h
    rcases h with h | ⟨h, h'⟩ | ⟨h, h'⟩
    · rw [← h]
      exact equal_self hx
    · rw [h, h']
      decide +kernel
    · rw [h, h']
      decide +kernel

/-- A numeral that denotes a number reads back as its magnitude. -/
theorem units_of_equal {d : Decimal} {sign negative : Bool} {hu : Representable units}
    (h : (d.toBinary64 sign).equal (.finite negative units hu) = true) : d.units = units := by
  obtain ⟨place, hx, hy⟩ := equal_iff.1 h
  have hunits := natAbs_of_position? hy
  unfold Decimal.toBinary64 at hx
  split at hx
  · exact (natAbs_of_position? hx).symm.trans hunits
  · -- an infinity stands at the limit, where no finite number stands
    rw [← Option.some.inj hx, natAbs_signed] at hunits
    exact absurd hunits (Nat.ne_of_gt hu.1)

end Binary64

namespace Word

open Binary64 (read?)

variable {x : Binary64}

theorem number_of_zero (h : x.equal 0 = true) : number x = "0" := if_pos h

theorem number_of_nonzero (h : x.equal 0 = false) : number x = x.text := by
  rw [number, h]
  rfl

/-- The text of a number is canonical, and no numeral of the number has fewer digits. -/
theorem canonical_number (hx : x.isFinite = true) :
    Text.Canonical (number x).toList ∧ ∀ (sign : Bool) (d : Decimal),
      (d.toBinary64 sign).equal x = true →
        (Text.significant (number x).toList).length ≤ (Nat.toDigits 10 d.digits).length := by
  cases hzero : x.equal 0 with
  | true =>
    have hwhole : Text.IsWhole ['0'] := ⟨rfl, fun _ => rfl⟩
    rw [number_of_zero hzero]
    exact ⟨.parts false hwhole (List.forall_mem_nil _) nofun, fun _ _ _ => Nat.zero_le _⟩
  | false =>
    rw [number_of_nonzero hzero]
    cases x with
    | finite negative units hu =>
      have hz : units ≠ 0 := by
        intro hz
        rw [Binary64.equal_zero_iff.2 hz] at hzero
        cases hzero
      obtain ⟨hcanonical, hdigits⟩ := Binary64.canonical_finite negative hu hz
      refine ⟨hcanonical, ?_⟩
      intro sign d hd
      rw [hdigits]
      exact ((Binary64.shortest_least .up hu hz).2 d (Binary64.units_of_equal hd)).1
    | _ => simp [Binary64.isFinite] at hx

theorem number_ne_minusZero (hx : x.isFinite = true) : number x ≠ "-0" := by
  intro h
  obtain ⟨y, hread, hequal, _⟩ := Binary64.read?_number hx
  rw [h] at hread
  have hminus : read? "-0".toList = some (-0) := by decide +kernel
  have hzero : (-0 : Binary64).equal 0 = true := by decide +kernel
  rw [← Option.some.inj (hminus.symm.trans hread)] at hequal
  rw [number_of_zero (Binary64.equal_trans (Binary64.equal_symm hequal) hzero)] at h
  exact absurd h (by decide)

/-- What is written for a finite number is a canonical decimal without exponent, never a negative
zero, and reads back as the number; no numeral of the number has fewer digits. So numbers share
their text if they are equal, which only the two zeros are without being the same. -/
theorem number_exact :
    (∀ x : Binary64, x.isFinite = true →
      Text.Canonical (number x).toList ∧
      (∀ c ∈ (number x).toList, c ≠ 'e' ∧ c ≠ 'E') ∧
      number x ≠ "-0" ∧
      (∃ y, read? (number x).toList = some y ∧ y.equal x = true) ∧
      ∀ (sign : Bool) (d : Decimal), (d.toBinary64 sign).equal x = true →
        (Text.significant (number x).toList).length ≤ (Nat.toDigits 10 d.digits).length) ∧
    ∀ x y : Binary64, x.isFinite = true → y.isFinite = true →
      (number x = number y ↔ x.equal y = true) ∧
      (x.equal y = true ↔ x = y ∨ x = 0 ∧ y = -0 ∨ x = -0 ∧ y = 0) := by
  constructor
  · intro x hx
    obtain ⟨hcanonical, hfewest⟩ := canonical_number hx
    obtain ⟨y, hread, hequal, _⟩ := Binary64.read?_number hx
    refine ⟨hcanonical, ?_, number_ne_minusZero hx, ⟨y, hread, hequal⟩, hfewest⟩
    intro c hc
    have hnumeric := (plain_number hx).isNumeric c hc
    constructor <;> rintro rfl <;> cases hnumeric
  · intro x y hx hy
    exact ⟨number_inj hx hy, Binary64.equal_iff_eq_or_zeros hx hy⟩

/-- The sum of 0.1 and 0.2 takes seventeen digits, the least positive number one. -/
theorem number_exact_extremes :
    let sum := Binary64.add 0.1 0.2
    let least : Binary64 := 5e-324
    let greatest : Binary64 := 1.7976931348623157e308
    sum.isFinite = true ∧ number sum = "0.30000000000000004" ∧
    (∀ (sign : Bool) (d : Decimal), (d.toBinary64 sign).equal sum = true →
      17 ≤ (Nat.toDigits 10 d.digits).length) ∧
    least.isFinite = true ∧ Text.Canonical (number least).toList ∧
    (∃ y, read? (number (-greatest)).toList = some y ∧ y.equal (-greatest) = true) ∧
    number (-0) = number 0 ∧ number (-least) ≠ number 0 := by
  intro sum least greatest
  have hsum : sum.isFinite = true := by decide +kernel
  have hleast : least.isFinite = true := by decide +kernel
  have htext : number sum = "0.30000000000000004" := by decide +kernel
  obtain ⟨_, _, _, _, hfewest⟩ := number_exact.1 sum hsum
  obtain ⟨hcanonical, _⟩ := number_exact.1 least hleast
  obtain ⟨_, _, _, hread, _⟩ := number_exact.1 (-greatest) (by decide +kernel)
  refine ⟨hsum, htext, ?_, hleast, hcanonical, hread, ?_, ?_⟩
  · rw [htext] at hfewest
    exact hfewest
  · exact (number_exact.2 (-0) 0 (by decide +kernel) (by decide +kernel)).1.2 (by decide +kernel)
  · intro h
    have hequal := (number_exact.2 (-least) 0 (by decide +kernel) (by decide +kernel)).1.1 h
    exact absurd hequal (by decide +kernel)

end Word

end ProbeCycle
