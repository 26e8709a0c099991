import ProbeCycle.Json.Reader
import ProbeCycle.Json.Writer
import ProbeCycle.Proofs.ReadBack

namespace ProbeCycle

namespace Json

private theorem ofBase?_control : ∀ n < 32, Text.ofBase? 16 (Text.hex4 n) = some n ∧
    Piece.ofUnit n = .char (Char.ofNat n) := by
  decide

private theorem readString_unit {a b c d : Char} {unit : Nat} (rest : List Char)
    (h : Text.ofBase? 16 [a, b, c, d] = some unit) :
    readString ('\\' :: 'u' :: a :: b :: c :: d :: rest) =
      (readString rest).map fun (text, rest) => (.ofUnit unit :: text, rest) := by
  rw [readString, h]
  cases readString rest <;> rfl

private theorem readString_escape {c d : Char} (rest : List Char) (hc : c ≠ 'u')
    (h : escape? c = some d) : readString ('\\' :: c :: rest) =
      (readString rest).map fun (text, rest) => (.char d :: text, rest) := by
  rw [readString, h]
  · cases readString rest <;> rfl
  · intro a b c' d' rest' he
    exact absurd he hc

private theorem readString_plain {c : Char} (rest : List Char) (hquote : c ≠ '"')
    (hslash : c ≠ '\\') (hc : ¬ c < ' ') : readString (c :: rest) =
      (readString rest).map fun (text, rest) => (.char c :: text, rest) := by
  rw [readString, if_neg hc]
  · cases readString rest <;> rfl
  · exact hquote
  · intro a b c' d' rest' he
    exact absurd he hslash
  · intro c' rest' he
    exact absurd he hslash

/-- A character stands for itself however it is escaped. -/
theorem readString_writePiece (c : Char) (rest : List Char) :
    readString (writePiece (.char c) ++ rest) =
      (readString rest).map fun (text, rest) => (.char c :: text, rest) := by
  unfold writePiece
  split
  case h_1 he | h_2 he | h_3 he | h_4 he | h_5 he | h_6 he | h_7 he =>
    cases he
    exact readString_escape rest (by decide) rfl
  case h_8 hquote hslash _ _ _ _ _ he =>
    cases he
    split
    · rename_i hc
      have hlt : c.toNat < 32 := hc
      obtain ⟨hhex, hunit⟩ := ofBase?_control c.toNat hlt
      rw [Char.ofNat_toNat] at hunit
      exact (readString_unit rest hhex).trans (by rw [hunit])
    · rename_i hc
      exact readString_plain rest hquote hslash hc
  case h_9 he => cases he

theorem readString_ofString (s : String) (rest : List Char) :
    readString ((Text.ofString s).flatMap writePiece ++ '"' :: rest) =
      some (.ofString s, rest) := by
  unfold Text.ofString
  induction s.toList with
  | nil => rfl
  | cons c cs ih =>
    rw [List.map_cons, List.flatMap_cons, List.append_assoc, readString_writePiece, ih]
    rfl

theorem string?_ofString (s : String) : (Text.ofString s).string? = some s := by
  have hchars : (Text.ofString s).chars? = some s.toList := by
    unfold Text.ofString
    induction s.toList with
    | nil => rfl
    | cons c cs ih => rw [List.map_cons, Text.chars?, ih, Option.map_some]
  rw [Text.string?, hchars, Option.map_some, String.ofList_toList]

/-- The characters that go on with a number. -/
def isNumberChar (c : Char) : Bool := c.isDigit || c == '.' || c == 'e' || c == 'E'

/-- What follows does not go on with a number. -/
def Ends (rest : List Char) : Prop := ∀ c ∈ rest.head?, isNumberChar c = false

theorem ends_cons {c : Char} (h : isNumberChar c = false) (rest : List Char) :
    Ends (c :: rest) := by
  intro d hd
  cases hd
  exact h

theorem Ends.head {rest : List Char} (h : Ends rest) {c : Char} (hc : c ∈ rest.head?) :
    c.isDigit = false ∧ c ≠ '.' ∧ c ≠ 'e' ∧ c ≠ 'E' := by
  simpa [isNumberChar, and_assoc] using h c hc

end Json

/-- The parts of a literal are digits, as many as JSON wants of them. -/
structure NumberLiteral.WellFormed (l : NumberLiteral) : Prop where
  whole : Text.IsWhole l.whole
  fraction : ∀ c ∈ l.fraction, c.isDigit = true
  exponent : ∀ negative digits, l.exponent = some (negative, digits) →
    Text.isDigits digits = true

/-- The texts of an exponent: either letter, and a plus sign or none where there is no minus. -/
inductive NumberLiteral.SpellsExponent : Option (Bool × List Char) → List Char → Prop where
  | none : SpellsExponent none []
  | unsigned {mark : Char} {digits : List Char} (hmark : mark = 'e' ∨ mark = 'E')
    (h : Text.isDigits digits = true) : SpellsExponent (some (false, digits)) (mark :: digits)
  | signed {mark : Char} {digits : List Char} (negative : Bool) (hmark : mark = 'e' ∨ mark = 'E')
    (h : Text.isDigits digits = true) : SpellsExponent (some (negative, digits))
      (mark :: (if negative then '-' else '+') :: digits)

/-- The texts of a literal, by the grammar of JSON. -/
inductive NumberLiteral.Spells : NumberLiteral → List Char → Prop where
  | parts (negative : Bool) {whole fraction written : List Char}
    {exponent : Option (Bool × List Char)} (hwhole : Text.IsWhole whole)
    (hfraction : ∀ c ∈ fraction, c.isDigit = true) (hexponent : SpellsExponent exponent written) :
    Spells ⟨negative, whole, fraction, exponent⟩
      ((if negative then ['-'] else []) ++ (Decimal.written whole fraction ++ written))

namespace Json

variable {l : NumberLiteral} {rest : List Char}

theorem readExponent_spelled {exponent : Option (Bool × List Char)} {written : List Char}
    (h : NumberLiteral.SpellsExponent exponent written) (hrest : Ends rest) :
    readExponent (written ++ rest) = some (exponent, rest) := by
  cases h with
  | none =>
    cases rest with
    | nil => rfl
    | cons c rest =>
      obtain ⟨_, _, he, hE⟩ := hrest.head (c := c) rfl
      simp [readExponent, he, hE]
  | unsigned hmark h =>
    obtain ⟨hne, hall⟩ := Text.isDigits_iff.1 h
    obtain ⟨htake, hdrop⟩ := Text.takeWhile_digits hall rest fun c hc => (hrest.head hc).1
    obtain ⟨d, ds, rfl⟩ := List.exists_cons_of_ne_nil hne
    have hd : d.isDigit = true := hall d (List.mem_cons_self ..)
    have hsign : ∀ c : Char, c.isDigit = false → d ≠ c := by
      rintro c hc rfl
      rw [hd] at hc
      cases hc
    rw [List.cons_append] at htake hdrop
    rcases hmark with rfl | rfl <;>
      simp [readExponent, htake, hdrop, hsign '+' rfl, hsign '-' rfl]
  | signed negative hmark h =>
    obtain ⟨hne, hall⟩ := Text.isDigits_iff.1 h
    obtain ⟨htake, hdrop⟩ := Text.takeWhile_digits hall rest fun c hc => (hrest.head hc).1
    rcases hmark with rfl | rfl <;> cases negative <;> simp [readExponent, htake, hdrop, hne]

theorem readFraction_written {fraction : List Char} (h : ∀ c ∈ fraction, c.isDigit = true)
    (hrest : ∀ c ∈ rest.head?, c.isDigit = false ∧ c ≠ '.') :
    readFraction ((if fraction = [] then [] else '.' :: fraction) ++ rest) =
      some (fraction, rest) := by
  by_cases hf : fraction = []
  · subst hf
    cases rest with
    | nil => rfl
    | cons c rest =>
      obtain ⟨_, hpoint⟩ := hrest c rfl
      simp [readFraction, hpoint]
  · obtain ⟨htake, hdrop⟩ := Text.takeWhile_digits h rest fun c hc => (hrest c hc).1
    simp [hf, readFraction, htake, hdrop]

/-- Each part of a literal ends where the next one begins. -/
theorem readNumber_spelled {cs : List Char} (h : l.Spells cs) (hrest : Ends rest) :
    readNumber (cs ++ rest) = some (l, rest) := by
  cases h with
  | @parts negative whole fraction written exponent hwhole hfraction hexponent =>
  obtain ⟨hdigits, hzero⟩ := hwhole
  obtain ⟨hne, hall⟩ := Text.isDigits_iff.1 hdigits
  have hafter : ∀ c ∈ (written ++ rest).head?, c.isDigit = false ∧ c ≠ '.' := by
    cases hexponent with
    | none => exact fun c hc => ⟨(hrest.head hc).1, (hrest.head hc).2.1⟩
    | unsigned hmark | signed _ hmark =>
      intro c hc
      cases hc
      rcases hmark with rfl | rfl <;> decide
  have hafter' : ∀ c ∈ ((if fraction = [] then [] else '.' :: fraction) ++
      (written ++ rest)).head?, c.isDigit = false := by
    by_cases hf : fraction = []
    · simpa [hf] using fun c hc => (hafter c hc).1
    · simp [hf, show Char.isDigit '.' = false from rfl]
  have htext : (if negative then ['-'] else []) ++ (Decimal.written whole fraction ++ written) ++
      rest = (if negative then ['-'] else []) ++ (whole ++
        ((if fraction = [] then [] else '.' :: fraction) ++ (written ++ rest))) := by
    simp [Decimal.written]
  obtain ⟨htake, hdrop⟩ := Text.takeWhile_digits hall _ hafter'
  have hsign : ∀ cs, readMinus ((if negative then ['-'] else []) ++ (whole ++ cs)) =
      (negative, whole ++ cs) := by
    intro cs
    cases negative with
    | true => rfl
    | false =>
      obtain ⟨c, ds, rfl⟩ := List.exists_cons_of_ne_nil hne
      have hc : c ≠ '-' := by
        rintro rfl
        exact absurd (hall '-' (List.mem_cons_self ..)) (by decide)
      simp [readMinus, hc]
  have hguard : ¬ (whole = [] ∨ (whole.head? = some '0' ∧ whole ≠ ['0'])) := by
    rintro (he | ⟨hhead, he⟩)
    · exact hne he
    · exact he (hzero hhead)
  unfold readNumber
  rw [htext, hsign]
  dsimp only
  rw [htake, hdrop, if_neg hguard, readFraction_written hfraction hafter]
  show (readExponent (written ++ rest)).bind _ = _
  rw [readExponent_spelled hexponent hrest]
  rfl

/-- A literal is written in one of its spellings. -/
theorem spells_writeNumber (h : l.WellFormed) : l.Spells (writeNumber l) := by
  obtain ⟨negative, whole, fraction, exponent⟩ := l
  obtain ⟨hwhole, hfraction, hexponent⟩ := h
  have hwritten (written : List Char) :
      (if negative then ['-'] else []) ++ (Decimal.written whole fraction ++ written) =
        (if negative then ['-'] else []) ++ whole ++
          (if fraction = [] then [] else '.' :: fraction) ++ written := by
    simp [Decimal.written]
  unfold writeNumber
  dsimp only
  rw [← hwritten]
  cases exponent with
  | none => exact .parts negative hwhole hfraction .none
  | some part =>
    exact .parts negative hwhole hfraction
      (.signed part.1 (Or.inl rfl) (hexponent part.1 part.2 rfl))

end Json

end ProbeCycle
