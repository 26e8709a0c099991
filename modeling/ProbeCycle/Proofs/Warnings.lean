import ProbeCycle.Proofs.Modifiers.Letters
import ProbeCycle.Proofs.Offsets

namespace ProbeCycle

namespace Event

def isWarning (event : Event) : Bool :=
  event.level == "WARN"

end Event

namespace Line

variable {s : Snapshot} {m : Modifiers} {letter : Char}

/-- The warnings given while the line is written. -/
def warnings (s : Snapshot) (m : Modifiers) : List Event :=
  (compileEvents s (some m)).filter Event.isWarning

/-- Some number that appears has the very letter. -/
def Carried (s : Snapshot) (letter : Char) : Prop :=
  ∃ item ∈ s.items, carries s letter item = true

instance (s : Snapshot) (letter : Char) : Decidable (Carried s letter) :=
  inferInstanceAs (Decidable (∃ item ∈ s.items, carries s letter item = true))

/-- The word of the setting at a place has the offset of the entry for `letter` in it. -/
def Uses (s : Snapshot) (m : Modifiers) (letter : Char) (place : Nat) : Prop :=
  ∃ item c offset, s.items[place]? = some item ∧ carries s c item = true ∧ c.toUpper = letter ∧
    (letter, offset) ∈ m.entries ∧ offsetAt? s (some m) place c = some offset

/-- Writing a setting gives no warning. -/
theorem warnings_write (s : Snapshot) (modifiers : Option Modifiers) (p : Progress)
    (item : Snapshot.Item) : (write s modifiers p item).events.filter Event.isWarning =
      p.events.filter Event.isWarning := by
  unfold write
  cases item.descriptor.parameter with
  | none => rfl
  | some letter =>
    dsimp only
    split
    · simp [Event.isWarning, Event.level]
    · cases item.value with
      | boolean flag => rfl
      | choice index => rfl
      | number x => cases offset? modifiers p.used letter <;> simp [Event.isWarning, Event.level]

theorem warnings_progress (s : Snapshot) (modifiers : Option Modifiers) :
    (progress s modifiers).events.filter Event.isWarning = [] := by
  suffices h : ∀ (items : List Snapshot.Item) (p : Progress),
      (items.foldl (write s modifiers) p).events.filter Event.isWarning =
        p.events.filter Event.isWarning from h s.items ⟨[], [], []⟩
  intro items
  induction items with
  | nil => exact fun _ => rfl
  | cons item rest ih => exact fun p => (ih _).trans (warnings_write s modifiers p item)

theorem warnings_eq (s : Snapshot) (m : Modifiers) : warnings s m =
    (m.letters.filter (· ∉ (progress s (some m)).used)).map (.unmatched · s.operation) := by
  have hall : ∀ event ∈ (m.letters.filter (· ∉ (progress s (some m)).used)).map
      (Event.unmatched · s.operation), event.isWarning = true := by
    intro event he
    obtain ⟨letter, _, rfl⟩ := List.mem_map.1 he
    rfl
  rw [warnings, compileEvents, List.filter_append, warnings_progress, List.nil_append]
  exact List.filter_eq_self.2 hall

/-- The letters kept as used are those of numbers, not those of offsets. -/
theorem mem_used_progress (hs : ∀ item ∈ s.items, s.includes item = s.appears item) :
    letter ∈ (progress s (some m)).used ↔ Carried s letter ∧ letter.toUpper ∈ m.letters := by
  have h := progress_after (some m) hs s.items.length (Nat.le_refl _)
  rw [List.take_length] at h
  have hused := h.used letter
  rw [List.take_length, List.any_eq_true] at hused
  exact hused.trans (and_congr_right fun _ => Modifiers.mem_letters.symm)

theorem exists_uses_iff : (∃ place, Uses s m letter place) ↔
    letter ∈ m.letters ∧ ∃ c, Carried s c ∧ c.toUpper = letter := by
  constructor
  · intro h
    obtain ⟨_, item, c, offset, hget, hcarries, hc, he, _⟩ := h
    exact ⟨List.mem_map_of_mem he, c, ⟨item, List.mem_of_getElem? hget, hcarries⟩, hc⟩
  · intro h
    obtain ⟨hletter, c, ⟨item, hitem, hcarries⟩, hc⟩ := h
    obtain ⟨⟨_, offset⟩, he, rfl⟩ := List.mem_map.1 hletter
    have hsome : (s.items.findIdx? (carries s c)).isSome = true := by
      rw [List.findIdx?_isSome]
      exact List.any_eq_true.2 ⟨item, hitem, hcarries⟩
    obtain ⟨place, hfirst⟩ := Option.isSome_iff_exists.1 hsome
    obtain ⟨hlt, hfirstCarries, _⟩ := List.findIdx?_eq_some_iff_getElem.1 hfirst
    have hoffset : offsetAt? s (some m) place c = some offset := by
      rw [offsetAt?_of_first _ hfirst, Option.bind_some, Modifiers.get?, hc]
      exact Modifiers.lookup_eq_some.2 he
    exact ⟨place, _, c, offset, List.getElem?_eq_getElem hlt, hfirstCarries, hc, he, hoffset⟩

/-- The letters kept as used are those of the offsets in use as long as no lower case letter finds
an offset. One that does must come with its upper case, so that the offset is kept as used as well,
and must not be a letter of the modifiers, since nothing uses an offset stored there. -/
theorem used_iff_uses : (∀ letter ∈ m.letters,
      (Carried s letter ∧ letter.toUpper ∈ m.letters ↔ ∃ place, Uses s m letter place)) ↔
    ∀ c, Carried s c → c.toUpper ∈ m.letters →
      c.toUpper = c ∨ Carried s c.toUpper ∧ c ∉ m.letters := by
  simp only [exists_uses_iff]
  constructor
  · intro h c hc hupper
    by_cases hcase : c.toUpper = c
    · exact Or.inl hcase
    · refine Or.inr ⟨((h _ hupper).2 ⟨hupper, c, hc, rfl⟩).1, ?_⟩
      intro hletter
      obtain ⟨_, c', _, hc'⟩ := (h c hletter).1 ⟨hc, hupper⟩
      exact hcase (hc' ▸ Char.toUpper_toUpper_eq_toUpper c')
  · intro h letter hletter
    constructor
    · intro hused
      rcases h letter hused.1 hused.2 with hcase | ⟨_, hno⟩
      · exact ⟨hletter, letter, hused.1, hcase⟩
      · exact absurd hletter hno
    · intro huses
      obtain ⟨_, c, hc, rfl⟩ := huses
      rw [Char.toUpper_toUpper_eq_toUpper]
      rcases h c hc hletter with hcase | ⟨hcarried, _⟩
      · exact ⟨hcase.symm ▸ hc, hletter⟩
      · exact ⟨hcarried, hletter⟩

/-- The warnings stand in the order of their letters, one for each letter of the modifiers that is
not kept as used. They are those of the offsets that no word uses exactly if every lower case letter
of a number with an offset comes with its upper case and is no letter of the modifiers; so they
always are if the letters of numbers are upper case. -/
theorem warnings_exact_iff {draft : Draft} (h : draft.build = .ok s) (code : Binary64)
    (m : Modifiers) :
    compile code s (some m) = reference code s (some m) ∧
    ∃ told : List Char, warnings s m = told.map (.unmatched · s.operation) ∧
      told.Pairwise (· < ·) ∧
      (∀ letter, letter ∈ told ↔
        letter ∈ m.letters ∧ ¬ (Carried s letter ∧ letter.toUpper ∈ m.letters)) ∧
      ((∀ letter, letter ∈ told ↔ letter ∈ m.letters ∧ ¬ ∃ place, Uses s m letter place) ↔
        ∀ c, Carried s c → c.toUpper ∈ m.letters →
          c.toUpper = c ∨ Carried s c.toUpper ∧ c ∉ m.letters) := by
  have hs : ∀ item ∈ s.items, s.includes item = s.appears item := by
    obtain ⟨hc, rfl⟩ := Draft.build_eq_ok.1 h
    exact fun _ hi => Draft.includes_eq_appears hc hi
  have htold : ∀ letter, letter ∈ m.letters.filter (· ∉ (progress s (some m)).used) ↔
      letter ∈ m.letters ∧ ¬ (Carried s letter ∧ letter.toUpper ∈ m.letters) := by
    intro letter
    rw [List.mem_filter, decide_eq_true_iff, mem_used_progress hs]
  refine ⟨compile_eq_reference code draft s _ h, _, warnings_eq s m, m.sorted.filter _, htold, ?_⟩
  rw [← used_iff_uses]
  apply forall_congr'
  intro letter
  rw [htold]
  by_cases hletter : letter ∈ m.letters
  · simp only [hletter, true_and, forall_const, not_iff_not]
  · simp only [hletter, false_and, IsEmpty.forall_iff]

/-- With a number under `z` and one under `Z`, the offset for `Z` is used by both, and the only
warning is the one of another letter. -/
theorem warnings_exact_iff_bothCases :
    bothCases.build = .ok bothCases.snapshot ∧
    compile 1 bothCases.snapshot (some (.ofList [('Z', 10), ('x', 1)])) = "G1 z11 Z12" ∧
    warnings bothCases.snapshot (.ofList [('Z', 10), ('x', 1)]) = [.unmatched 'X' "custom"] ∧
    ∀ letter, letter = 'X' ↔ letter ∈ (Modifiers.ofList [('Z', 10), ('x', 1)]).letters ∧
      ¬ ∃ place, Uses bothCases.snapshot (.ofList [('Z', 10), ('x', 1)]) letter place := by
  have hbuild : bothCases.build = .ok bothCases.snapshot := rfl
  obtain ⟨hline, told, hwarnings, _, _, hexact⟩ :=
    warnings_exact_iff hbuild 1 (.ofList [('Z', 10), ('x', 1)])
  have hgiven : warnings bothCases.snapshot (.ofList [('Z', 10), ('x', 1)]) =
      [.unmatched 'X' "custom"] := by decide +kernel
  obtain rfl : told = ['X'] := by
    rw [hgiven] at hwarnings
    exact List.map_injective_iff.2 (fun _ _ e => (Event.unmatched.inj e).1) hwarnings.symm
  have hspelled : ∀ item ∈ bothCases.snapshot.items, item.descriptor.parameter = some 'z' ∨
      item.descriptor.parameter = some 'Z' := by decide +kernel
  have hunused := hexact.2 fun c hc _ => by
    obtain ⟨item, hitem, hcarries⟩ := hc
    have hc := (carries_iff.1 hcarries).1
    rcases hspelled item hitem with hz | hz
    · obtain rfl : c = 'z' := Option.some.inj (hc.symm.trans hz)
      exact Or.inr ⟨by decide +kernel, by decide +kernel⟩
    · obtain rfl : c = 'Z' := Option.some.inj (hc.symm.trans hz)
      exact Or.inl rfl
  exact ⟨hbuild, hline.trans (by decide +kernel), hgiven,
    fun letter => List.mem_singleton.symm.trans (hunused letter)⟩

/-- One number, under a lower case letter. -/
def lowerCase : Draft :=
  (Draft.empty "custom").add "lower"
    { Setting.Descriptor.number "Lower" "" 1 with parameter := some 'z' }

/-- Its word has the offset for the upper case letter, of which there is a warning. -/
theorem warnings_usedOffset_lowerCase :
    lowerCase.build = .ok lowerCase.snapshot ∧
    compile 1 lowerCase.snapshot (some (.insert ∅ 'Z' 10)) = "G1 z11" ∧
    Uses lowerCase.snapshot (.insert ∅ 'Z' 10) 'Z' 0 ∧
    warnings lowerCase.snapshot (.insert ∅ 'Z' 10) = [.unmatched 'Z' "custom"] :=
  ⟨rfl, by decide +kernel, ⟨_, 'z', 10, rfl, by decide +kernel, rfl, by decide +kernel,
    by decide +kernel⟩, by decide +kernel⟩

end Line

end ProbeCycle
