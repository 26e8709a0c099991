import Mathlib.Data.List.Basic
import ProbeCycle.Proofs.Decimal
import ProbeCycle.Proofs.Numeral
import ProbeCycle.Proofs.Text.Case

namespace ProbeCycle

namespace Text

theorem digitChar_ne_zero : ∀ n < 10, n ≠ 0 → Nat.digitChar n ≠ '0' := by decide

theorem head?_toDigits {n : Nat} (h : n ≠ 0) : (Nat.toDigits 10 n).head? ≠ some '0' := by
  induction n using Nat.strongRecOn with
  | ind n ih =>
    by_cases hn : n < 10
    · rw [Nat.toDigits_of_lt_base hn]
      simpa using digitChar_ne_zero n hn h
    · rw [Nat.toDigits_of_base_le (by decide) (by omega), List.head?_append_of_ne_nil _
        Nat.toDigits_ne_nil]
      exact ih (n / 10) (by omega) (by omega)

/-- Digits of which the first is a zero only if it is the only one. -/
def IsWhole (cs : List Char) : Prop := isDigits cs = true ∧ (cs.head? = some '0' → cs = ['0'])

theorem isWhole_toDigits (n : Nat) : IsWhole (Nat.toDigits 10 n) := by
  refine ⟨isDigits_toDigits n, ?_⟩
  intro h
  by_cases hn : n = 0
  · rw [hn, Nat.toDigits_zero]
  · exact absurd h (head?_toDigits hn)

theorem isWhole_of_head? {cs : List Char} (h : isDigits cs = true) (hz : cs.head? ≠ some '0') :
    IsWhole cs :=
  ⟨h, fun he => absurd he hz⟩

theorem splitSign_of_isDigit {c : Char} (h : c.isDigit = true) (cs : List Char)
    (negative : Bool) : splitSign (if negative then '-' :: c :: cs else c :: cs) =
      (negative, c :: cs) := by
  cases negative with
  | true => rfl
  | false =>
    unfold splitSign
    split
    · rename_i he
      cases he
      simp at h
    · rename_i he
      cases he
      simp at h
    · rfl

/-- Where digits end, reading them ends. -/
theorem takeWhile_digits {ds : List Char} (hd : ∀ c ∈ ds, c.isDigit = true) (rest : List Char)
    (hr : ∀ c ∈ rest.head?, c.isDigit = false) :
    (ds ++ rest).takeWhile Char.isDigit = ds ∧ (ds ++ rest).dropWhile Char.isDigit = rest := by
  rw [List.takeWhile_append_of_pos hd, List.dropWhile_append_of_pos hd]
  cases rest with
  | nil => simp
  | cons c rest => simp [hr c rfl]

end Text

namespace Decimal

open Text (isDigits IsWhole)

/-- The numeral with these digits before and behind its point. -/
def ofParts (whole fraction : List Char) : Decimal :=
  ⟨Nat.ofDigitChars 10 (whole ++ fraction) 0, -fraction.length⟩

/-- Digits with a point between them, if some are behind it. -/
def written (whole fraction : List Char) : List Char :=
  whole ++ if fraction = [] then [] else '.' :: fraction

/-- The digits before and behind the point of a numeral without exponent. -/
def parts (digits : List Char) : Int → List Char × List Char
  | .ofNat k => (digits ++ List.replicate k '0', [])
  | .negSucc k =>
    if k + 1 < digits.length then
      (digits.take (digits.length - (k + 1)), digits.drop (digits.length - (k + 1)))
    else (['0'], List.replicate (k + 1 - digits.length) '0' ++ digits)

theorem positional_eq_written {digits : List Char} (h : digits ≠ []) (exponent : Int) :
    positional digits exponent =
      written (parts digits exponent).1 (parts digits exponent).2 := by
  cases exponent with
  | ofNat k => simp [positional, parts, written]
  | negSucc k =>
    unfold positional parts
    dsimp only
    split
    · rename_i hk
      have hdrop : digits.drop (digits.length - (k + 1)) ≠ [] := by
        rw [Ne, List.drop_eq_nil_iff]
        omega
      rw [written, if_neg hdrop]
    · simp [written, h]

/-- Setting the point does not change what a numeral denotes. -/
theorem toBinary64_parts (negative : Bool) (digits : List Char) (exponent : Int) :
    (ofParts (parts digits exponent).1 (parts digits exponent).2).toBinary64 negative =
      (mk (Nat.ofDigitChars 10 digits 0) exponent).toBinary64 negative := by
  cases exponent with
  | ofNat k =>
    have hvalue : Nat.ofDigitChars 10 (digits ++ List.replicate k '0' ++ []) 0 =
        Nat.ofDigitChars 10 digits 0 * 10 ^ k := by
      rw [List.append_nil, Nat.ofDigitChars_append, Nat.ofDigitChars_replicate_zero, Nat.mul_comm]
    have hzero : (0 : Int) + k = Int.ofNat k := Int.zero_add _
    simp only [parts, ofParts, hvalue, toBinary64_shift]
    exact congrArg (fun e => (mk _ e).toBinary64 negative) hzero
  | negSucc k =>
    unfold parts ofParts
    dsimp only
    split
    · rename_i hk
      have hlength : -((digits.drop (digits.length - (k + 1))).length : Int) = Int.negSucc k := by
        rw [List.length_drop]
        omega
      rw [List.take_append_drop, hlength]
    · rename_i hk
      have hlength : -((List.replicate (k + 1 - digits.length) '0' ++ digits).length : Int) =
          Int.negSucc k := by
        rw [List.length_append, List.length_replicate]
        omega
      have hvalue : Nat.ofDigitChars 10
          (['0'] ++ (List.replicate (k + 1 - digits.length) '0' ++ digits)) 0 =
            Nat.ofDigitChars 10 digits 0 := by
        rw [List.singleton_append, Nat.ofDigitChars_cons, Nat.ofDigitChars_append]
        exact congrArg (Nat.ofDigitChars 10 digits) (by simp [Nat.ofDigitChars_replicate_zero])
      rw [hvalue, hlength]

theorem toDigits_eq_significant (d : Decimal) : ∃ k : Nat,
    Nat.toDigits 10 d.digits = d.significant.1 ++ List.replicate k '0' ∧
      d.significant.2 = d.exponent + k := by
  have hzeros : ∀ c ∈ (Nat.toDigits 10 d.digits).reverse.takeWhile (· == '0'), c = '0' := by
    intro c hc
    simpa using List.mem_takeWhile_imp hc
  have hsplit : Nat.toDigits 10 d.digits = d.significant.1 ++
      ((Nat.toDigits 10 d.digits).reverse.takeWhile (· == '0')).reverse := by
    rw [significant, ← List.reverse_append, List.takeWhile_append_dropWhile, List.reverse_reverse]
  rw [List.eq_replicate_of_mem hzeros, List.reverse_replicate] at hsplit
  refine ⟨_, hsplit, ?_⟩
  have hlength := congrArg List.length hsplit
  rw [List.length_append, List.length_replicate] at hlength
  change d.exponent + ((Nat.toDigits 10 d.digits).length - d.significant.1.length : Nat) = _
  omega

/-- Zeros at the end only move into the exponent. -/
theorem toBinary64_significant (negative : Bool) (d : Decimal) :
    (mk (Nat.ofDigitChars 10 d.significant.1 0) d.significant.2).toBinary64 negative =
      d.toBinary64 negative := by
  obtain ⟨k, hdigits, hexponent⟩ := toDigits_eq_significant d
  have hvalue : Nat.ofDigitChars 10 d.significant.1 0 * 10 ^ k = d.digits := by
    rw [Nat.mul_comm, ← Nat.ofDigitChars_replicate_zero, ← Nat.ofDigitChars_append, ← hdigits,
      Nat.ofDigitChars_ten_toDigits]
  rw [hexponent, ← toBinary64_shift, hvalue]

theorem head?_significant {d : Decimal} (h : d.digits ≠ 0) :
    d.significant.1.head? ≠ some '0' := by
  obtain ⟨k, hdigits, _⟩ := toDigits_eq_significant d
  have hne : d.significant.1 ≠ [] := (Text.isDigits_iff.1 (isDigits_significant h)).1
  have hhead := Text.head?_toDigits h
  rwa [hdigits, List.head?_append_of_ne_nil _ hne] at hhead

theorem isWhole_parts {digits : List Char} (h : isDigits digits = true)
    (hz : digits.head? ≠ some '0') (exponent : Int) : IsWhole (parts digits exponent).1 := by
  obtain ⟨hne, hall⟩ := Text.isDigits_iff.1 h
  unfold parts
  cases exponent with
  | ofNat k =>
    refine Text.isWhole_of_head? (Text.isDigits_append h ?_) ?_
    · intro c hc
      rw [List.eq_of_mem_replicate hc]
      rfl
    · rwa [List.head?_append_of_ne_nil _ hne]
  | negSucc k =>
    dsimp only
    split
    · rename_i hk
      refine Text.isWhole_of_head? (Text.isDigits_iff.2 ⟨?_, ?_⟩) ?_
      · intro he
        rcases List.take_eq_nil_iff.1 he with he | he
        · omega
        · exact hne he
      · exact fun c hc => hall c (List.mem_of_mem_take hc)
      · rwa [List.head?_take, if_neg (by omega)]
    · exact ⟨rfl, fun _ => rfl⟩

theorem isDigit_of_mem_parts {digits : List Char} (h : isDigits digits = true) (exponent : Int) :
    ∀ c ∈ (parts digits exponent).2, c.isDigit = true := by
  intro c hc
  have hall := (Text.isDigits_iff.1 h).2
  unfold parts at hc
  cases exponent with
  | ofNat k => simp at hc
  | negSucc k =>
    dsimp only at hc
    split at hc
    · exact hall c (List.mem_of_mem_drop hc)
    · rcases List.mem_append.1 hc with hc | hc
      · rw [List.eq_of_mem_replicate hc]
        rfl
      · exact hall c hc

theorem read?_written {whole fraction : List Char} (hw : isDigits whole = true)
    (hf : ∀ c ∈ fraction, c.isDigit = true) :
    read? (written whole fraction) = some (ofParts whole fraction) := by
  obtain ⟨hne, hall⟩ := Text.isDigits_iff.1 hw
  by_cases he : fraction = []
  · subst he
    obtain ⟨htake, hdrop⟩ := Text.takeWhile_digits hall [] (by simp)
    simp only [written, if_true, read?, htake, hdrop]
    simp [hne, exponent?, ofParts]
  · obtain ⟨htake, hdrop⟩ := Text.takeWhile_digits hall ('.' :: fraction)
      (by simp [show Char.isDigit '.' = false from rfl])
    obtain ⟨htake', hdrop'⟩ := Text.takeWhile_digits hf [] (by simp)
    rw [List.append_nil] at htake' hdrop'
    simp only [written, if_neg he, read?, htake, hdrop, htake', hdrop']
    simp [hne, exponent?, ofParts]

/-- A zero behind the point says nothing. -/
theorem toBinary64_point_zero (negative : Bool) (whole : List Char) :
    (ofParts whole ['0']).toBinary64 negative = (ofParts whole []).toBinary64 negative := by
  have hvalue : Nat.ofDigitChars 10 (whole ++ ['0']) 0 =
      Nat.ofDigitChars 10 (whole ++ []) 0 * 10 ^ 1 := by
    rw [List.append_nil, Nat.ofDigitChars_append, Nat.ofDigitChars_cons, Nat.ofDigitChars_nil]
    simp [Nat.mul_comm]
  simp only [ofParts, hvalue, toBinary64_shift]
  rfl

end Decimal

namespace Binary64

open Text (IsWhole)

variable {units : Nat}

theorem units_exactNumeral (h : Representable units) : (exactNumeral units).units = units := by
  have hten : Nat.pow 5 1074 * unitsPerOne = Nat.pow 10 (-(-1074 : Int)).toNat := by decide +kernel
  have hnum : (exactNumeral units).numerator = units * (exactNumeral units).denominator := by
    change units * Nat.pow 5 1074 * 1 * unitsPerOne = units * Nat.pow 10 (-(-1074 : Int)).toNat
    rw [Nat.mul_one, Nat.mul_assoc, hten]
  have hnearest : nearestUnits (exactNumeral units).numerator (exactNumeral units).denominator =
      units := by
    rw [hnum, nearestUnits_exact (Decimal.denominator_pos _) h.2]
  rcases Decimal.units_or_limit (exactNumeral units) with hunits | ⟨_, hlimit⟩
  · rw [hunits, hnearest]
  · rw [hnearest] at hlimit
    exact absurd h.1 (Nat.not_lt.2 hlimit)

/-- Whether the search for few digits finds some or not, the numeral denotes the magnitude. -/
theorem units_shortest (tie : Tie) (h : Representable units) :
    (shortest tie units).units = units := by
  unfold shortest
  cases hs : (List.range 17).findSome? fun i => numeralOfLength? tie units (i + 1) with
  | none => exact units_exactNumeral h
  | some d =>
    obtain ⟨i, _, hd⟩ := List.exists_of_findSome?_eq_some hs
    exact units_of_readingBack? hd

/-- Digits before and behind a point that spell a magnitude. -/
structure Spelling (units : Nat) (whole fraction : List Char) : Prop where
  isWhole : IsWhole whole
  isDigit : ∀ c ∈ fraction, c.isDigit = true
  denotes : ∀ negative (h : Representable units),
    (Decimal.ofParts whole fraction).toBinary64 negative = .finite negative units h

theorem exists_spelling (h : Representable units) : ∃ whole fraction,
    magnitudeText units = Decimal.written whole fraction ∧ Spelling units whole fraction := by
  unfold magnitudeText
  split
  · rename_i hz
    subst hz
    exact ⟨['0'], [], rfl, ⟨rfl, fun _ => rfl⟩, by simp, fun negative h =>
      Decimal.toBinary64_of_units (d := .ofParts ['0'] []) rfl h negative⟩
  · rename_i hz
    have hne := shortest_ne_zero .up hz
    have hdigits := Decimal.isDigits_significant hne
    refine ⟨_, _, Decimal.positional_eq_written (Text.isDigits_iff.1 hdigits).1 _, ?_, ?_, ?_⟩
    · exact Decimal.isWhole_parts hdigits (Decimal.head?_significant hne) _
    · exact Decimal.isDigit_of_mem_parts hdigits _
    · intro negative h
      exact (Decimal.toBinary64_parts ..).trans ((Decimal.toBinary64_significant ..).trans
        (Decimal.toBinary64_of_units (units_shortest .up h) h negative))

/-- What starts with a digit is read as a numeral. -/
theorem read?_of_isDigit {c : Char} (hc : c.isDigit = true) (cs : List Char) (negative : Bool) :
    read? (if negative then '-' :: c :: cs else c :: cs) =
      (Decimal.read? (c :: cs)).map (Decimal.toBinary64 negative) := by
  have hword : ∀ d ds, d.isDigit = false → String.ofList ((c :: cs).map Char.toLower) ≠
      String.ofList (d :: ds) := by
    intro d ds hd he
    have hlower : c.toLower = d := (List.cons.inj (String.ofList_injective he)).1
    rw [Text.toLower_of_isDigit hc] at hlower
    rw [hlower, hd] at hc
    cases hc
  unfold read?
  rw [Text.splitSign_of_isDigit hc]
  dsimp only
  split
  · rename_i he
    exact absurd he (hword 'i' ['n', 'f'] rfl)
  · rename_i he
    exact absurd he (hword 'i' ['n', 'f', 'i', 'n', 'i', 't', 'y'] rfl)
  · rename_i he
    exact absurd he (hword 'n' ['a', 'n'] rfl)
  · rfl

/-- Digits before and behind a point are read as the magnitude that they spell, under a sign too. -/
theorem Spelling.read? {whole fraction : List Char} (hs : Spelling units whole fraction)
    (h : Representable units) (negative : Bool) :
    Binary64.read? ((if negative then ['-'] else []) ++ Decimal.written whole fraction) =
      some (.finite negative units h) := by
  obtain ⟨hne, hall⟩ := Text.isDigits_iff.1 hs.isWhole.1
  obtain ⟨c, cs, rfl⟩ := List.exists_cons_of_ne_nil hne
  have hsign : (if negative then ['-'] else []) ++ Decimal.written (c :: cs) fraction =
      if negative then '-' :: Decimal.written (c :: cs) fraction
      else Decimal.written (c :: cs) fraction := by
    cases negative <;> rfl
  have hread := read?_of_isDigit (hall c (List.mem_cons_self ..))
    (cs ++ if fraction = [] then [] else '.' :: fraction) negative
  rw [hsign]
  refine hread.trans ?_
  change (Decimal.read? (Decimal.written (c :: cs) fraction)).map _ = _
  rw [Decimal.read?_written hs.isWhole.1 hs.isDigit, Option.map_some, hs.denotes negative h]

theorem toList_text (negative : Bool) (h : Representable units) :
    (text (.finite negative units h)).toList =
      (if negative then ['-'] else []) ++ magnitudeText units := by
  rw [text, String.toList_ofList]
  cases negative <;> rfl

theorem read?_text {x : Binary64} (h : x.isFinite = true) : read? x.text.toList = some x := by
  cases x with
  | finite negative units hunits =>
    obtain ⟨whole, fraction, htext, hs⟩ := exists_spelling hunits
    rw [toList_text, htext, hs.read? hunits negative]
  | _ => simp [isFinite] at h

theorem text_injective {x y : Binary64} (hx : x.isFinite = true) (hy : y.isFinite = true)
    (h : x.text = y.text) : x = y := by
  have hread := read?_text hx
  rw [h, read?_text hy] at hread
  exact (Option.some.inj hread).symm

theorem equal_iff {x y : Binary64} : x.equal y = true ↔
    ∃ place, x.position? = some place ∧ y.position? = some place := by
  unfold equal
  cases x.position? with
  | none => simp
  | some a =>
    cases y.position? with
    | none => simp
    | some b =>
      simp only [beq_iff_eq, Option.some.injEq, exists_eq_left']
      exact eq_comm

theorem equal_self {x : Binary64} (h : x.isFinite = true) : x.equal x = true := by
  cases x with
  | finite s a ha => exact equal_iff.2 ⟨_, rfl, rfl⟩
  | _ => simp [isFinite] at h

theorem equal_symm {x y : Binary64} (h : x.equal y = true) : y.equal x = true := by
  obtain ⟨place, hx, hy⟩ := equal_iff.1 h
  exact equal_iff.2 ⟨place, hy, hx⟩

theorem equal_trans {x y z : Binary64} (h : x.equal y = true) (h' : y.equal z = true) :
    x.equal z = true := by
  obtain ⟨place, hx, hy⟩ := equal_iff.1 h
  obtain ⟨place', hy', hz⟩ := equal_iff.1 h'
  obtain rfl : place = place' := Option.some.inj (hy.symm.trans hy')
  exact equal_iff.2 ⟨place, hx, hz⟩

theorem zero_eq : ∃ h, (0 : Binary64) = .finite false 0 h :=
  ⟨by decide +kernel, by decide +kernel⟩

theorem natAbs_signed (negative : Bool) (n : Nat) : (signed negative n).natAbs = n := by
  cases negative with
  | false => exact Int.natAbs_natCast n
  | true => exact (Int.natAbs_neg _).trans (Int.natAbs_natCast n)

theorem natAbs_of_position? {negative : Bool} {hu : Representable units} {place : Int}
    (h : (finite negative units hu).position? = some place) : place.natAbs = units := by
  rw [← Option.some.inj h, natAbs_signed]

theorem equal_zero_iff {negative : Bool} {hu : Representable units} :
    (finite negative units hu).equal 0 = true ↔ units = 0 := by
  obtain ⟨hz, hzero⟩ := zero_eq
  rw [hzero, equal_iff]
  constructor
  · rintro ⟨place, hx, hy⟩
    exact (natAbs_of_position? hx).symm.trans (natAbs_of_position? hy)
  · rintro rfl
    cases negative with
    | false => exact ⟨0, rfl, rfl⟩
    | true => exact ⟨0, rfl, rfl⟩

/-- Only the two zeros are equal without being the same. -/
theorem eq_of_equal {x y : Binary64} (hx : x.isFinite = true) (hy : y.isFinite = true)
    (h : x.equal y = true) (hzero : x.equal 0 = false) : x = y := by
  cases x with
  | finite s a ha =>
    cases y with
    | finite t b hb =>
      obtain ⟨place, hplace, hplace'⟩ := equal_iff.1 h
      obtain rfl : a = b := (natAbs_of_position? hplace).symm.trans (natAbs_of_position? hplace')
      have hne : a ≠ 0 := by
        intro ha
        rw [equal_zero_iff.2 ha] at hzero
        cases hzero
      have hsigned : signed s a = signed t a := Option.some.inj (hplace.trans hplace'.symm)
      obtain rfl : s = t := by
        cases s <;> cases t <;>
          simp only [signed, Bool.false_eq_true, if_true, if_false] at hsigned ⊢ <;> omega
      rfl
    | _ => simp [isFinite] at hy
  | _ => simp [isFinite] at hx

theorem equal_zero_of_text {x : Binary64} (hx : x.isFinite = true) (h : x.text = "0") :
    x.equal 0 = true := by
  have hread := read?_text hx
  rw [h] at hread
  have hzero : read? "0".toList = some 0 := by decide +kernel
  rw [← Option.some.inj (hzero.symm.trans hread)]
  decide +kernel

end Binary64

/-- What is shown of a number reads as the number, if not with the sign of a zero. -/
theorem Binary64.read?_number {x : Binary64} (h : x.isFinite = true) :
    ∃ y, read? (Word.number x).toList = some y ∧ y.equal x = true ∧ y.isFinite = true := by
  unfold Word.number
  split
  · rename_i hzero
    exact ⟨0, by decide +kernel, equal_symm hzero, by decide +kernel⟩
  · exact ⟨x, read?_text h, equal_self h, h⟩

open Binary64 (equal_symm equal_trans) in
/-- What stands in a word tells numbers apart as they are told apart as numbers. -/
theorem Word.number_inj {x y : Binary64} (hx : x.isFinite = true) (hy : y.isFinite = true) :
    Word.number x = Word.number y ↔ x.equal y = true := by
  unfold Word.number
  cases hzx : x.equal 0 with
  | true =>
    cases hzy : y.equal 0 with
    | true => simpa using equal_trans hzx (equal_symm hzy)
    | false =>
      have htext : y.text ≠ "0" := by
        intro he
        rw [Binary64.equal_zero_of_text hy he] at hzy
        cases hzy
      have hne : x.equal y ≠ true := by
        intro he
        rw [equal_trans (equal_symm he) hzx] at hzy
        cases hzy
      simpa [htext.symm] using hne
  | false =>
    cases hzy : y.equal 0 with
    | true =>
      have htext : x.text ≠ "0" := by
        intro he
        rw [Binary64.equal_zero_of_text hx he] at hzx
        cases hzx
      have hne : x.equal y ≠ true := by
        intro he
        rw [equal_trans he hzy] at hzx
        cases hzx
      simpa [htext] using hne
    | false =>
      simp only [Bool.false_eq_true, if_false]
      constructor
      · intro h
        rw [← Binary64.text_injective hx hy h]
        exact Binary64.equal_self hx
      · intro h
        rw [Binary64.eq_of_equal hx hy h hzx]

end ProbeCycle
