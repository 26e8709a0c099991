import ProbeCycle.Line
import ProbeCycle.Proofs.Snapshot

namespace ProbeCycle

namespace Line

/-- The setting is a number that appears under the letter. -/
def carries (s : Snapshot) (letter : Char) (item : Snapshot.Item) : Bool :=
  item.descriptor.parameter == some letter && item.value.kind == .number && s.appears item

/-- The offset for a number at a place: none if an earlier number has the very same letter. -/
def offsetAt? (s : Snapshot) (modifiers : Option Modifiers) (place : Nat) (letter : Char) :
    Option Binary64 :=
  if (s.items.take place).any (carries s letter) then none else modifiers.bind (·.get? letter)

/-- What stands behind the letter; the multiplier takes part only in adding an offset. -/
def textOf (item : Snapshot.Item) (offset : Option Binary64) : String :=
  match item.value, offset with
  | .boolean flag, _ => if flag then "1" else "0"
  | .choice index, _ => toString index.toNat
  | .number x, none => Word.number x
  | .number x, some offset => Word.number ((x.multiply item.descriptor.multiplier).add offset)

/-- The word of a setting, if it has a letter and appears; `offset` gives what there is to add. -/
def wordOf? (s : Snapshot) (offset : Char → Option Binary64) (item : Snapshot.Item) :
    Option String :=
  match item.descriptor.parameter with
  | none => none
  | some letter =>
    if s.appears item then some (Word.word letter (textOf item (offset letter))) else none

def wordAt? (s : Snapshot) (modifiers : Option Modifiers) (place : Nat) : Option String :=
  s.items[place]?.bind (wordOf? s (offsetAt? s modifiers place))

/-- The line, each word taken from its place alone. -/
def reference (code : Binary64) (s : Snapshot) (modifiers : Option Modifiers) : String :=
  " ".intercalate
    (Word.code code :: (List.range s.items.length).filterMap (wordAt? s modifiers))

variable {s : Snapshot} {modifiers : Option Modifiers} {n : Nat} {p : Progress}
  {item : Snapshot.Item}

/-- The settings with a word are those that have a letter and appear. -/
theorem wordAt?_eq_some {place : Nat} {word : String} : wordAt? s modifiers place = some word ↔
    ∃ item letter, s.items[place]? = some item ∧ item.descriptor.parameter = some letter ∧
      s.appears item = true ∧
      Word.word letter (textOf item (offsetAt? s modifiers place letter)) = word := by
  rw [wordAt?, Option.bind_eq_some_iff]
  apply exists_congr
  intro item
  rw [exists_and_left]
  apply and_congr_right
  intro _
  unfold wordOf?
  cases item.descriptor.parameter with
  | none => simp
  | some letter => cases ha : s.appears item <;> simp

theorem lt_length_of_wordAt? {place : Nat} {word : String}
    (h : wordAt? s modifiers place = some word) : place < s.items.length := by
  obtain ⟨item, _, hget, _⟩ := wordAt?_eq_some.1 h
  exact (List.getElem?_eq_some_iff.1 hget).1

theorem words_write (hi : s.includes item = s.appears item) :
    (write s modifiers p item).words =
      p.words ++ (wordOf? s (offset? modifiers p.used) item).toList := by
  unfold write wordOf?
  cases hl : item.descriptor.parameter with
  | none => simp
  | some letter =>
    cases ha : s.appears item with
    | false => simp [hi, ha]
    | true =>
      cases hv : item.value with
      | boolean flag => simp [hi, ha, textOf, hv]
      | choice index => simp [hi, ha, textOf, hv]
      | number x => cases ho : offset? modifiers p.used letter <;> simp [hi, ha, textOf, hv, ho]

private theorem carries_eq (hi : s.includes item = s.appears item) {letter c : Char}
    (hl : item.descriptor.parameter = some letter) : carries s c item =
      (letter == c && item.value.kind == .number && s.includes item) := by
  rw [carries, hl, hi]
  rfl

/-- A letter that is used has no offset left, so it is not used again. -/
private theorem mem_used_offset (modifiers : Option Modifiers) (used : List Char)
    (letter c : Char) :
    (c ∈ match offset? modifiers used letter with
      | none => used
      | some _ => used ++ [letter]) ↔
      c ∈ used ∨ letter = c ∧ (modifiers.bind (·.get? c)).isSome = true := by
  by_cases hu : letter ∈ used
  · have ho : offset? modifiers used letter = none := if_pos hu
    rw [ho]
    constructor
    · exact Or.inl
    · intro h
      rcases h with hc | ⟨rfl, _⟩
      · exact hc
      · exact hu
  · have ho : offset? modifiers used letter = modifiers.bind (·.get? letter) := if_neg hu
    rw [ho]
    cases hm : modifiers.bind (·.get? letter) with
    | none =>
      constructor
      · exact Or.inl
      · intro h
        rcases h with hc | ⟨rfl, hs⟩
        · exact hc
        · simp [hm] at hs
    | some offset =>
      simp only [List.mem_append, List.mem_singleton]
      constructor
      · intro h
        rcases h with hc | rfl
        · exact Or.inl hc
        · exact Or.inr ⟨rfl, by simp [hm]⟩
      · intro h
        rcases h with hc | ⟨rfl, _⟩
        · exact Or.inl hc
        · exact Or.inr rfl

theorem mem_used_write (hi : s.includes item = s.appears item) (c : Char) :
    c ∈ (write s modifiers p item).used ↔ c ∈ p.used ∨
      carries s c item = true ∧ (modifiers.bind (·.get? c)).isSome = true := by
  cases hl : item.descriptor.parameter with
  | none => simp [write, carries, hl]
  | some letter =>
    rw [carries_eq hi hl]
    rw [write, hl]
    cases ha : s.includes item with
    | false => simp
    | true =>
      cases hv : item.value with
      | boolean flag => simp [Setting.Value.kind]
      | choice index => simp [Setting.Value.kind]
      | number x =>
        have hused := mem_used_offset modifiers p.used letter c
        cases ho : offset? modifiers p.used letter <;>
          simpa [ho, ha, Setting.Value.kind] using hused

/-- What holds when the first `n` settings are written: a letter is used once a number that
appears has carried it and there was an offset. -/
structure After (s : Snapshot) (modifiers : Option Modifiers) (n : Nat) (p : Progress) : Prop where
  words : p.words = (List.range n).filterMap (wordAt? s modifiers)
  used : ∀ letter, letter ∈ p.used ↔
    (s.items.take n).any (carries s letter) = true ∧ (modifiers.bind (·.get? letter)).isSome = true

theorem After.start (s : Snapshot) (modifiers : Option Modifiers) :
    After s modifiers 0 ⟨[], [], []⟩ where
  words := rfl
  used := by simp

theorem After.offset (h : After s modifiers n p) :
    offset? modifiers p.used = offsetAt? s modifiers n := by
  funext letter
  unfold offset? offsetAt?
  by_cases hc : (s.items.take n).any (carries s letter) = true
  · rw [if_pos hc]
    cases hm : modifiers.bind (·.get? letter) with
    | none => simp
    | some offset =>
      have hu : letter ∈ p.used := (h.used letter).2 ⟨hc, by simp [hm]⟩
      rw [if_pos hu]
  · have hu : letter ∉ p.used := fun hu => hc ((h.used letter).1 hu).1
    rw [if_neg hc, if_neg hu]

theorem After.write (h : After s modifiers n p) (hn : s.items[n]? = some item)
    (hi : s.includes item = s.appears item) :
    After s modifiers (n + 1) (write s modifiers p item) where
  words := by
    have hw : wordAt? s modifiers n = wordOf? s (offset? modifiers p.used) item := by
      rw [wordAt?, hn, h.offset]
      rfl
    rw [words_write hi, ← hw, List.range_succ, List.filterMap_append, h.words]
    cases hword : wordAt? s modifiers n <;> simp [hword]
  used := by
    intro letter
    have ht : s.items.take (n + 1) = s.items.take n ++ [item] := by
      rw [List.take_add_one, hn]
      rfl
    have ha : (s.items.take n ++ [item]).any (carries s letter) = true ↔
        (s.items.take n).any (carries s letter) = true ∨ carries s letter item = true := by
      simp
    rw [mem_used_write hi, h.used letter, ht, ha]
    tauto

theorem progress_after (modifiers : Option Modifiers)
    (hs : ∀ item ∈ s.items, s.includes item = s.appears item) :
    ∀ n, n ≤ s.items.length →
      After s modifiers n ((s.items.take n).foldl (write s modifiers) ⟨[], [], []⟩) := by
  intro n
  induction n with
  | zero => intro _; exact After.start s modifiers
  | succ n ih =>
    intro hn
    have hlt : n < s.items.length := by omega
    have hget : s.items[n]? = some s.items[n] := List.getElem?_eq_getElem hlt
    rw [List.take_add_one, hget, List.foldl_append]
    exact (ih (by omega)).write hget (hs _ (List.getElem_mem hlt))

theorem compile_eq_reference_of_appears
    (hs : ∀ item ∈ s.items, s.includes item = s.appears item) (code : Binary64)
    (modifiers : Option Modifiers) : compile code s modifiers = reference code s modifiers := by
  have h := progress_after modifiers hs s.items.length (Nat.le_refl _)
  rw [List.take_length] at h
  rw [compile, reference, progress, h.words]

/-- Whatever the draft, its line is written word by word from the places of its settings. -/
theorem compile_eq_reference (code : Binary64) (draft : Draft) (s : Snapshot)
    (modifiers : Option Modifiers) (h : draft.build = .ok s) :
    compile code s modifiers = reference code s modifiers := by
  obtain ⟨hc, rfl⟩ := Draft.build_eq_ok.1 h
  exact compile_eq_reference_of_appears (fun _ hi => Draft.includes_eq_appears hc hi) code _

/-- A flag, and three numbers under one letter of which the first is hidden. -/
def sharedLetter : Draft :=
  let length (default : Binary64) : Setting.Descriptor :=
    { Setting.Descriptor.number "Length" "" default with parameter := some 'C' }
  let toggle : Setting.Descriptor :=
    { Setting.Descriptor.boolean "Toggle" "" false with parameter := some 'Q' }
  (Draft.empty "custom").add "toggle" toggle
    |>.add "hidden" ((length 7).withCondition "toggle" (.boolean true))
    |>.add "first" { length 1 with multiplier := -1 }
    |>.add "second" (length 2)

theorem compile_eq_reference_sharedLetter :
    sharedLetter.build = .ok sharedLetter.snapshot ∧
    compile 1 sharedLetter.snapshot (some (.ofList [('c', 10)])) =
      reference 1 sharedLetter.snapshot (some (.ofList [('c', 10)])) ∧
    reference 1 sharedLetter.snapshot (some (.ofList [('c', 10)])) = "G1 Q0 C9 C2" :=
  ⟨rfl, compile_eq_reference 1 sharedLetter _ _ rfl, by decide +kernel⟩

end Line

end ProbeCycle
