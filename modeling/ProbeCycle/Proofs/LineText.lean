import ProbeCycle.Proofs.Line
import ProbeCycle.Proofs.Numeral
import ProbeCycle.Proofs.Rounding

namespace ProbeCycle

theorem mem_intercalate {words : List String} {c : Char} (hc : c ≠ ' ') :
    c ∈ (" ".intercalate words).toList ↔ ∃ word ∈ words, c ∈ word.toList := by
  rw [String.toList_intercalate]
  induction words with
  | nil => simp
  | cons word rest ih =>
    cases rest with
    | nil => simp
    | cons next rest =>
      have hblank : c ∉ " ".toList := by simpa using hc
      rw [List.map_cons, List.map_cons, List.intercalate_cons_cons, ← List.map_cons]
      simp only [List.mem_append, hblank, ih, or_false, List.mem_cons, exists_eq_or_imp]

/-- An upper-case letter before a value of the given form. -/
def Word.Spelled (form : List Char → Prop) (word : String) : Prop :=
  ∃ letter value, word.toList = letter :: value ∧ letter.isUpper = true ∧ form value

/-- Words of the given form with single blanks between them. -/
def Line.Spelled (form : List Char → Prop) (line : String) : Prop :=
  ∃ words, words ≠ [] ∧ line = " ".intercalate words ∧ ∀ word ∈ words, Word.Spelled form word

/-- Each word is an upper-case letter before a plain numeral. -/
def Line.WellFormed (line : String) : Prop := Line.Spelled Text.Plain line

/-- What is written for an infinite number. -/
def Text.Infinite (cs : List Char) : Prop := cs = "inf".toList ∨ cs = "-inf".toList

theorem Word.spelled_word {form : List Char → Prop} {letter : Char} {value : String}
    (hl : letter.isUpper = true) (hv : form value.toList) :
    Word.Spelled form (Word.word letter value) :=
  ⟨letter, value.toList, by simp [Word.word], hl, hv⟩

theorem Word.Spelled.mono {form form' : List Char → Prop} {word : String}
    (h : Word.Spelled form word) (hform : ∀ {value}, form value → form' value) :
    Word.Spelled form' word := by
  obtain ⟨letter, value, hlist, hl, hv⟩ := h
  exact ⟨letter, value, hlist, hl, hform hv⟩

theorem Word.infinite_number {x : Binary64} (hx : x.isFinite = false) (hn : x ≠ .nan) :
    Text.Infinite (Word.number x).toList := by
  cases x with
  | finite negative units h => simp [Binary64.isFinite] at hx
  | nan => exact absurd rfl hn
  | infinite negative =>
    have hzero : (Binary64.infinite negative).equal 0 = false := by
      cases negative <;> decide +kernel
    rw [Word.number, hzero]
    cases negative with
    | false => exact Or.inl rfl
    | true => exact Or.inr rfl

/-- Small letters do not come up in well-formed lines, so neither does the word `inf`. -/
theorem Line.WellFormed.upper_or_numeric {line : String} {c : Char} (h : Line.WellFormed line)
    (hm : c ∈ line.toList) (hc : c ≠ ' ') : c.isUpper = true ∨ Text.isNumeric c = true := by
  obtain ⟨words, _, rfl, hwords⟩ := h
  obtain ⟨word, hword, hm⟩ := (mem_intercalate hc).1 hm
  obtain ⟨letter, value, hlist, hl, hv⟩ := hwords word hword
  rw [hlist] at hm
  rcases List.mem_cons.1 hm with rfl | hm
  · exact Or.inl hl
  · exact Or.inr (hv.isNumeric c hm)

theorem Line.WellFormed.not_infinite {words : List String} {word : String}
    (h : Line.WellFormed (" ".intercalate words)) (hw : word ∈ words) :
    ¬ Word.Spelled Text.Infinite word := by
  intro hinf
  obtain ⟨letter, value, hlist, _, hv⟩ := hinf
  -- The letter i is in both texts for an infinite number, and in no numeral.
  have hi : 'i' ∈ word.toList := by
    rw [hlist]
    rcases hv with rfl | rfl <;> simp
  have hm := (mem_intercalate (by decide)).2 ⟨word, hw, hi⟩
  exact absurd (h.upper_or_numeric hm (by decide)) (by decide)

/-- What the words of a snapshot are made of: upper-case letters, finite values, and factors that
take part in the sign only. -/
structure Snapshot.Presentable (s : Snapshot) : Prop where
  letters : ∀ item ∈ s.items, ∀ letter, item.descriptor.parameter = some letter →
    letter.isUpper = true
  multipliers : ∀ item ∈ s.items, item.descriptor.multiplier = 1 ∨ item.descriptor.multiplier = -1
  finite : ∀ item ∈ s.items, item.value.isFinite = true

def Modifiers.Finite (m : Modifiers) : Prop :=
  ∀ letter offset, m.get? letter = some offset → offset.isFinite = true

namespace Line

/-- An offset takes the number of a setting beyond every finite one. -/
def Exceeds (item : Snapshot.Item) (offset : Option Binary64) : Prop :=
  ∃ x o, item.value = .number x ∧ offset = some o ∧
    ((x.multiply item.descriptor.multiplier).add o).isFinite = false

/-- This happens to the number that appears at a place. -/
def Overflows (s : Snapshot) (modifiers : Option Modifiers) (place : Nat) : Prop :=
  ∃ item letter, s.items[place]? = some item ∧ s.appears item = true ∧
    item.descriptor.parameter = some letter ∧ Exceeds item (offsetAt? s modifiers place letter)

variable {s : Snapshot} {m : Modifiers} {modifiers : Option Modifiers} {place : Nat}
  {word : String} {letter : Char} {offset : Binary64}

theorem isFinite_offsetAt? (hm : m.Finite) (h : offsetAt? s (some m) place letter = some offset) :
    offset.isFinite = true := by
  unfold offsetAt? at h
  split at h
  · cases h
  · exact hm letter offset h

theorem spelled_textOf {item : Snapshot.Item} {offset : Option Binary64}
    (hv : item.value.isFinite = true)
    (hmul : item.descriptor.multiplier = 1 ∨ item.descriptor.multiplier = -1)
    (hoffset : ∀ o, offset = some o → o.isFinite = true) :
    (¬ Exceeds item offset ∧ Text.Plain (textOf item offset).toList) ∨
      (Exceeds item offset ∧ Text.Infinite (textOf item offset).toList) := by
  unfold textOf Exceeds
  cases hvalue : item.value with
  | boolean flag =>
    refine Or.inl ⟨by simp, ?_⟩
    cases flag with
    | false => exact Text.plain_nat 0
    | true => exact Text.plain_nat 1
  | choice index => exact Or.inl ⟨by simp, Text.plain_nat index.toNat⟩
  | number x =>
    rw [hvalue] at hv
    cases offset with
    | none => exact Or.inl ⟨by simp, Word.plain_number hv⟩
    | some o =>
      dsimp only
      cases hsum : ((x.multiply item.descriptor.multiplier).add o).isFinite with
      | true =>
        refine Or.inl ⟨?_, Word.plain_number hsum⟩
        intro hexceeds
        obtain ⟨_, _, hx, ho, hinf⟩ := hexceeds
        cases hx
        cases ho
        rw [hsum] at hinf
        cases hinf
      | false =>
        have hproduct := Binary64.isFinite_multiply (x := x) hv hmul
        exact Or.inr ⟨⟨x, o, rfl, rfl, hsum⟩,
          Word.infinite_number hsum (Binary64.add_ne_nan hproduct (hoffset o rfl))⟩

/-- Without an overflow a word is well-formed, with one it is infinite. -/
theorem spelled_wordAt? (h : s.Presentable) (hm : m.Finite)
    (hword : wordAt? s (some m) place = some word) :
    (¬ Overflows s (some m) place ∧ Word.Spelled Text.Plain word) ∨
      (Overflows s (some m) place ∧ Word.Spelled Text.Infinite word) := by
  obtain ⟨item, letter, hget, hl, happears, rfl⟩ := wordAt?_eq_some.1 hword
  have hitem := List.mem_of_getElem? hget
  have hupper := h.letters item hitem letter hl
  rcases spelled_textOf (h.finite item hitem) (h.multipliers item hitem)
    (fun o ho => isFinite_offsetAt? hm ho) with ⟨hno, hplain⟩ | ⟨hex, hinf⟩
  · refine Or.inl ⟨?_, Word.spelled_word hupper hplain⟩
    intro hover
    obtain ⟨other, letter', hget', _, hl', hex⟩ := hover
    obtain rfl : item = other := Option.some.inj (hget.symm.trans hget')
    obtain rfl : letter = letter' := Option.some.inj (hl.symm.trans hl')
    exact hno hex
  · exact Or.inr ⟨⟨item, letter, hget, happears, hl, hex⟩, Word.spelled_word hupper hinf⟩

theorem exists_wordAt?_of_overflows (h : Overflows s modifiers place) :
    ∃ word, wordAt? s modifiers place = some word := by
  obtain ⟨item, letter, hget, happears, hl, _⟩ := h
  exact ⟨_, wordAt?_eq_some.2 ⟨item, letter, hget, hl, happears, rfl⟩⟩

theorem spelled_code {code : Binary64} (h : code.isFinite = true) :
    Word.Spelled Text.Plain (Word.code code) :=
  Word.spelled_word (by decide) (Word.plain_number h)

/-- Infinite values are all that can be wrong with a line, and only an overflow writes them. -/
theorem reference_spelled {code : Binary64} (hcode : code.isFinite = true) (h : s.Presentable)
    (hm : m.Finite) :
    Line.Spelled (fun cs => Text.Plain cs ∨ Text.Infinite cs) (reference code s (some m)) ∧
      (Line.WellFormed (reference code s (some m)) ↔ ∀ place, ¬ Overflows s (some m) place) := by
  have hwords : ∀ {form : List Char → Prop}, Word.Spelled form (Word.code code) →
      (∀ place word, wordAt? s (some m) place = some word → Word.Spelled form word) →
      Line.Spelled form (reference code s (some m)) := by
    intro form hfirst hall
    refine ⟨_, List.cons_ne_nil _ _, rfl, List.forall_mem_cons.2 ⟨hfirst, ?_⟩⟩
    intro word hword
    obtain ⟨place, _, hword⟩ := List.mem_filterMap.1 hword
    exact hall place word hword
  refine ⟨hwords ((spelled_code hcode).mono Or.inl) ?_, ?_, ?_⟩
  · intro place word hword
    rcases spelled_wordAt? h hm hword with ⟨_, hplain⟩ | ⟨_, hinf⟩
    · exact hplain.mono Or.inl
    · exact hinf.mono Or.inr
  · intro hline place hover
    obtain ⟨word, hword⟩ := exists_wordAt?_of_overflows hover
    have hmem := List.mem_filterMap.2
      ⟨place, List.mem_range.2 (lt_length_of_wordAt? hword), hword⟩
    rcases spelled_wordAt? h hm hword with ⟨hno, _⟩ | ⟨_, hinf⟩
    · exact hno hover
    · exact hline.not_infinite (List.mem_cons_of_mem _ hmem) hinf
  · intro hno
    refine hwords (spelled_code hcode) ?_
    intro place word hword
    rcases spelled_wordAt? h hm hword with ⟨_, hplain⟩ | ⟨hover, _⟩
    · exact hplain
    · exact absurd hover (hno place)

end Line

end ProbeCycle
