import ProbeCycle.Proofs.Line
import ProbeCycle.Proofs.Modifiers

namespace ProbeCycle

namespace Line

/-- The words of the settings, each with the place of its setting. -/
def placed (s : Snapshot) (modifiers : Option Modifiers) : List (Nat × String) :=
  (List.range s.items.length).filterMap fun place =>
    (wordAt? s modifiers place).map fun word => (place, word)

/-- The line of placed words. -/
def join (code : Binary64) (words : List (Nat × String)) : String :=
  " ".intercalate (Word.code code :: words.map Prod.snd)

/-- The setting is a number that appears under the letter, in upper or lower case. -/
def shares (s : Snapshot) (letter : Char) (item : Snapshot.Item) : Bool :=
  item.descriptor.parameter.any (·.toUpper == letter.toUpper) && item.value.kind == .number &&
    s.appears item

/-- The numbers that appear under a letter all have it in the same case. -/
def OneSpelling (s : Snapshot) (letter : Char) : Prop :=
  ∀ item ∈ s.items, ∀ item' ∈ s.items, shares s letter item = true →
    shares s letter item' = true → item.descriptor.parameter = item'.descriptor.parameter

instance (s : Snapshot) (letter : Char) : Decidable (OneSpelling s letter) :=
  inferInstanceAs (Decidable (∀ item ∈ s.items, ∀ item' ∈ s.items, shares s letter item = true →
    shares s letter item' = true → item.descriptor.parameter = item'.descriptor.parameter))

variable {s : Snapshot} {m : Modifiers} {modifiers : Option Modifiers} {place : Nat}
  {letter c : Char} {offset : Binary64} {word word' : String}

theorem reference_eq_join (code : Binary64) (s : Snapshot) (modifiers : Option Modifiers) :
    reference code s modifiers = join code (placed s modifiers) := by
  have hwords : ((Option.map Prod.snd) ∘ fun place =>
      (wordAt? s modifiers place).map fun word => (place, word)) = wordAt? s modifiers := by
    funext place
    cases h : wordAt? s modifiers place <;> simp [h]
  rw [reference, join, placed, List.map_filterMap]
  exact congrArg (fun f => " ".intercalate (Word.code code :: (List.range _).filterMap f))
    hwords.symm

theorem mem_placed : (place, word) ∈ placed s modifiers ↔
    wordAt? s modifiers place = some word := by
  simp only [placed, List.mem_filterMap, List.mem_range, Option.map_eq_some_iff, Prod.mk.injEq]
  constructor
  · intro h
    obtain ⟨_, _, _, hword, rfl, rfl⟩ := h
    exact hword
  · intro h
    exact ⟨place, lt_length_of_wordAt? h, word, h, rfl, rfl⟩

/-- Whether a setting has a word does not depend on offsets. -/
theorem isSome_wordAt? (s : Snapshot) (modifiers modifiers' : Option Modifiers) (place : Nat) :
    (wordAt? s modifiers' place).isSome = (wordAt? s modifiers place).isSome := by
  unfold wordAt?
  cases s.items[place]? with
  | none => rfl
  | some item =>
    simp only [Option.bind_some]
    unfold wordOf?
    cases item.descriptor.parameter with
    | none => rfl
    | some letter =>
      dsimp only
      split <;> rfl

theorem places_placed (s : Snapshot) (modifiers : Option Modifiers) :
    (placed s modifiers).map Prod.fst =
      (List.range s.items.length).filter fun place => (wordAt? s modifiers place).isSome := by
  rw [placed, List.map_filterMap, ← List.filterMap_eq_filter]
  congr 1
  funext place
  cases h : wordAt? s modifiers place <;> simp [Option.guard, h]

theorem places_nodup (s : Snapshot) (modifiers : Option Modifiers) :
    ((placed s modifiers).map Prod.fst).Nodup := by
  rw [places_placed]
  exact List.nodup_range.filter _

theorem places_eq (s : Snapshot) (modifiers modifiers' : Option Modifiers) :
    (placed s modifiers').map Prod.fst = (placed s modifiers).map Prod.fst := by
  rw [places_placed, places_placed]
  congr 1
  funext place
  rw [isSome_wordAt? s modifiers modifiers']

theorem carries_iff {item : Snapshot.Item} : carries s c item = true ↔
    item.descriptor.parameter = some c ∧ (∃ x, item.value = .number x) ∧
      s.appears item = true := by
  have hkind : item.value.kind = .number ↔ ∃ x, item.value = .number x := by
    cases item.value <;> simp [Setting.Value.kind]
  simp only [carries, Bool.and_eq_true, beq_iff_eq, hkind, and_assoc]

/-- What there is to add shows only in the word of a number that appears. -/
theorem carries_of_wordOf?_ne {item : Snapshot.Item} {f g : Char → Option Binary64}
    (h : wordOf? s f item ≠ wordOf? s g item) : ∃ c, carries s c item = true ∧ f c ≠ g c := by
  unfold wordOf? at h
  cases hl : item.descriptor.parameter with
  | none => simp [hl] at h
  | some c =>
    rw [hl] at h
    dsimp only at h
    cases ha : s.appears item with
    | false => simp [ha] at h
    | true =>
      have htext : textOf item (f c) ≠ textOf item (g c) := by
        intro he
        simp [he] at h
      have hne : f c ≠ g c := fun he => htext (congrArg (textOf item) he)
      cases hv : item.value with
      | boolean flag => simp [textOf, hv] at htext
      | choice index => simp [textOf, hv] at htext
      | number x => exact ⟨c, carries_iff.2 ⟨hl, ⟨x, hv⟩, ha⟩, hne⟩

theorem first_of_offsetAt?_ne
    (h : offsetAt? s (some m) place c ≠ offsetAt? s (some (m.insert letter offset)) place c) :
    c.toUpper = letter.toUpper ∧ (s.items.take place).any (carries s c) = false := by
  unfold offsetAt? at h
  cases hearlier : (s.items.take place).any (carries s c) with
  | true => simp [hearlier] at h
  | false =>
    refine ⟨?_, rfl⟩
    by_contra hc
    simp [hearlier, Modifiers.get?_insert, hc] at h

/-- Only a first number under the letter, for one case of it, gets another word. -/
theorem first_of_wordAt?_ne
    (h : wordAt? s (some m) place ≠ wordAt? s (some (m.insert letter offset)) place) :
    ∃ c, c.toUpper = letter.toUpper ∧ s.items.findIdx? (carries s c) = some place := by
  unfold wordAt? at h
  cases hget : s.items[place]? with
  | none => simp [hget] at h
  | some item =>
    simp only [hget, Option.bind_some] at h
    obtain ⟨c, hcarries, hoffset⟩ := carries_of_wordOf?_ne h
    obtain ⟨hc, hearlier⟩ := first_of_offsetAt?_ne hoffset
    obtain ⟨hlt, rfl⟩ := List.getElem?_eq_some_iff.1 hget
    refine ⟨c, hc, List.findIdx?_eq_some_iff_getElem.2 ⟨hlt, hcarries, ?_⟩⟩
    intro other ho hother
    have hm : s.items[other] ∈ s.items.take place :=
      List.mem_take_iff_getElem.2 ⟨other, by omega, rfl⟩
    rw [List.any_eq_false] at hearlier
    exact hearlier _ hm hother

/-- The first number under a letter has all of its offset. -/
theorem offsetAt?_of_first (modifiers : Option Modifiers)
    (hfirst : s.items.findIdx? (carries s c) = some place) :
    offsetAt? s modifiers place c = modifiers.bind (·.get? c) := by
  obtain ⟨hlt, _, hearlier⟩ := List.findIdx?_eq_some_iff_getElem.1 hfirst
  have hnone : (s.items.take place).any (carries s c) = false := by
    rw [List.any_eq_false]
    intro item hitem
    obtain ⟨other, ho, rfl⟩ := List.mem_take_iff_getElem.1 hitem
    exact hearlier other (by omega)
  simp [offsetAt?, hnone]

/-- Each first number under the letter, in either case of it, gets the offset. -/
theorem wordAt?_of_first (hc : c.toUpper = letter.toUpper)
    (hfirst : s.items.findIdx? (carries s c) = some place) :
    ∃ item x, s.items[place]? = some item ∧ item.value = .number x ∧
      wordAt? s (some (m.insert letter offset)) place =
        some (Word.word c (Word.number ((x.multiply item.descriptor.multiplier).add offset))) := by
  obtain ⟨hlt, hcarries, _⟩ := List.findIdx?_eq_some_iff_getElem.1 hfirst
  obtain ⟨hl, ⟨x, hx⟩, ha⟩ := carries_iff.1 hcarries
  have hget : s.items[place]? = some s.items[place] := List.getElem?_eq_getElem hlt
  have hoffset : offsetAt? s (some (m.insert letter offset)) place c = some offset := by
    rw [offsetAt?_of_first _ hfirst]
    simp [Modifiers.get?_insert, hc]
  refine ⟨s.items[place], x, hget, hx, wordAt?_eq_some.2 ⟨_, c, hget, hl, ha, ?_⟩⟩
  simp only [textOf, hx, hoffset]

theorem shares_iff {item : Snapshot.Item} : shares s letter item = true ↔
    ∃ c, c.toUpper = letter.toUpper ∧ carries s c item = true := by
  unfold shares carries
  cases item.descriptor.parameter with
  | none => simp
  | some c => simp [and_assoc]

/-- With one spelling, the first number under that is the first one under the letter. -/
theorem OneSpelling.first (h : OneSpelling s letter) (hc : c.toUpper = letter.toUpper)
    (hplace : s.items.findIdx? (carries s c) = some place) :
    s.items.findIdx? (shares s letter) = some place := by
  obtain ⟨hlt, hcarries, hearlier⟩ := List.findIdx?_eq_some_iff_getElem.1 hplace
  refine List.findIdx?_eq_some_iff_getElem.2 ⟨hlt, shares_iff.2 ⟨c, hc, hcarries⟩, ?_⟩
  intro other ho hother
  obtain ⟨c', hc', hcarries'⟩ := shares_iff.1 hother
  have hspelled := h _ (List.getElem_mem hlt) _ (List.getElem_mem (by omega))
    (shares_iff.2 ⟨c, hc, hcarries⟩) hother
  rw [(carries_iff.1 hcarries).1, (carries_iff.1 hcarries').1] at hspelled
  exact hearlier other ho (Option.some.inj hspelled ▸ hcarries')

/-- Where two lines of a snapshot differ, they have different words for the same setting. -/
theorem wordAt?_ne_of_placed_ne {modifiers' : Option Modifiers} {i : Nat}
    (h : (placed s modifiers)[i]? ≠ (placed s modifiers')[i]?) : ∃ place,
      ((placed s modifiers)[i]?).map Prod.fst = some place ∧
        wordAt? s modifiers place ≠ wordAt? s modifiers' place := by
  have hplaces : ((placed s modifiers')[i]?).map Prod.fst =
      ((placed s modifiers)[i]?).map Prod.fst := by
    rw [← List.getElem?_map, ← List.getElem?_map, places_eq s modifiers]
  cases hb : (placed s modifiers)[i]? with
  | none =>
    rw [hb, Option.map_none, Option.map_eq_none_iff] at hplaces
    exact absurd (hb.trans hplaces.symm) h
  | some b =>
    obtain ⟨place, word⟩ := b
    rw [hb] at hplaces
    obtain ⟨⟨place', word'⟩, ha, hplace⟩ := Option.map_eq_some_iff.1 hplaces
    obtain rfl : place' = place := hplace
    have hword := mem_placed.1 (List.mem_of_getElem? hb)
    have hword' := mem_placed.1 (List.mem_of_getElem? ha)
    refine ⟨place', rfl, ?_⟩
    rw [hword, hword']
    intro he
    rw [hb, ha, Option.some.inj he] at h
    exact h rfl

/-- One more offset goes to the first number under each spelling of its letter and changes no
other word; if there is one spelling, it changes one word at most. -/
theorem insert_changes_first_of_spelling {draft : Draft} (h : draft.build = .ok s)
    (code : Binary64) (m : Modifiers) (letter : Char) (offset : Binary64) :
    let before := placed s (some m)
    let after := placed s (some (m.insert letter offset))
    compile code s (some m) = join code before ∧
    compile code s (some (m.insert letter offset)) = join code after ∧
    after.map Prod.fst = before.map Prod.fst ∧
    (∀ c place, c.toUpper = letter.toUpper → s.items.findIdx? (carries s c) = some place →
      ∃ item x, s.items[place]? = some item ∧ item.value = .number x ∧
        (place, Word.word c (Word.number ((x.multiply item.descriptor.multiplier).add offset))) ∈
          after) ∧
    (∀ i : Nat, before[i]? ≠ after[i]? → ∃ c place, c.toUpper = letter.toUpper ∧
      s.items.findIdx? (carries s c) = some place ∧ before[i]?.map Prod.fst = some place) ∧
    (OneSpelling s letter → ∀ i : Nat, before[i]? ≠ after[i]? →
      (∃ place, s.items.findIdx? (shares s letter) = some place ∧
        before[i]?.map Prod.fst = some place) ∧
      ∀ j : Nat, before[j]? ≠ after[j]? → i = j) := by
  intro before after
  have hfirst : ∀ i : Nat, before[i]? ≠ after[i]? → ∃ c place, c.toUpper = letter.toUpper ∧
      s.items.findIdx? (carries s c) = some place ∧ before[i]?.map Prod.fst = some place := by
    intro i hi
    obtain ⟨place, hplace, hword⟩ := wordAt?_ne_of_placed_ne hi
    obtain ⟨c, hc, hindex⟩ := first_of_wordAt?_ne hword
    exact ⟨c, place, hc, hindex, hplace⟩
  have hline : ∀ modifiers, compile code s modifiers = join code (placed s modifiers) := by
    intro modifiers
    rw [compile_eq_reference code draft s modifiers h, reference_eq_join]
  have hoffset : ∀ c place, c.toUpper = letter.toUpper →
      s.items.findIdx? (carries s c) = some place → ∃ item x, s.items[place]? = some item ∧
        item.value = .number x ∧ (place, Word.word c
          (Word.number ((x.multiply item.descriptor.multiplier).add offset))) ∈ after := by
    intro c place hc hindex
    obtain ⟨item, x, hget, hx, hword⟩ := wordAt?_of_first hc hindex
    exact ⟨item, x, hget, hx, mem_placed.2 hword⟩
  refine ⟨hline _, hline _, places_eq s _ _, hoffset, hfirst, ?_⟩
  intro hone
  have hshares : ∀ i : Nat, before[i]? ≠ after[i]? → ∃ place,
      s.items.findIdx? (shares s letter) = some place ∧
        before[i]?.map Prod.fst = some place := by
    intro i hi
    obtain ⟨c, place, hc, hindex, hplace⟩ := hfirst i hi
    exact ⟨place, hone.first hc hindex, hplace⟩
  intro i hi
  refine ⟨hshares i hi, ?_⟩
  intro j hj
  obtain ⟨place, hindex, hplace⟩ := hshares i hi
  obtain ⟨place', hindex', hplace'⟩ := hshares j hj
  obtain rfl : place = place' := Option.some.inj (hindex.symm.trans hindex')
  rw [← List.getElem?_map] at hplace hplace'
  have hlt := (List.getElem?_eq_some_iff.1 hplace).1
  exact (List.getElem?_inj hlt (places_nodup s (some m))).1 (hplace.trans hplace'.symm)

theorem insert_changes_first_of_spelling_sharedLetter :
    sharedLetter.build = .ok sharedLetter.snapshot ∧ OneSpelling sharedLetter.snapshot 'c' ∧
    compile 1 sharedLetter.snapshot (some ∅) = "G1 Q0 C1 C2" ∧
    compile 1 sharedLetter.snapshot (some (.insert ∅ 'c' 10)) = "G1 Q0 C9 C2" ∧
    ∀ i : Nat, (placed sharedLetter.snapshot (some ∅))[i]? ≠
      (placed sharedLetter.snapshot (some (.insert ∅ 'c' 10)))[i]? → 1 = i := by
  have hbuild : sharedLetter.build = .ok sharedLetter.snapshot := rfl
  obtain ⟨hbefore, hafter, _, _, _, hone⟩ := insert_changes_first_of_spelling hbuild 1 ∅ 'c' 10
  have hspelled : OneSpelling sharedLetter.snapshot 'c' := by decide +kernel
  exact ⟨hbuild, hspelled, hbefore.trans (by decide +kernel), hafter.trans (by decide +kernel),
    (hone hspelled 1 (by decide +kernel)).2⟩

/-- Two numbers under one letter, in lower and in upper case. -/
def bothCases : Draft :=
  (Draft.empty "custom").add "lower"
      { Setting.Descriptor.number "Lower" "" 1 with parameter := some 'z' }
    |>.add "upper" { Setting.Descriptor.number "Upper" "" 2 with parameter := some 'Z' }

/-- The lines of these with and without an offset have two words that differ. -/
theorem insert_changes_two_words_bothCases :
    bothCases.build = .ok bothCases.snapshot ∧
    compile 1 bothCases.snapshot (some ∅) = "G1 z1 Z2" ∧
    compile 1 bothCases.snapshot (some (.insert ∅ 'Z' 10)) = "G1 z11 Z12" ∧
    ¬ ∀ i j : Nat, (placed bothCases.snapshot (some ∅))[i]? ≠
        (placed bothCases.snapshot (some (.insert ∅ 'Z' 10)))[i]? →
      (placed bothCases.snapshot (some ∅))[j]? ≠
        (placed bothCases.snapshot (some (.insert ∅ 'Z' 10)))[j]? → i = j := by
  refine ⟨rfl, by decide +kernel, by decide +kernel, ?_⟩
  intro h
  exact absurd (h 0 1 (by decide +kernel) (by decide +kernel)) (by decide)

end Line

end ProbeCycle
