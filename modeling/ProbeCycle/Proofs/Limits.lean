import ProbeCycle.Proofs.Line

namespace ProbeCycle

namespace Snapshot

variable {s : Snapshot}

/-- Every setting holds a value of its own kind, and its limits are numbers. -/
def Checkable (s : Snapshot) : Prop :=
  ∀ item ∈ s.items, item.descriptor.Accepts item.value ∧ item.descriptor.spec.Comparable

theorem checkBounds_eq_ok (h : s.Checkable) : s.checkBounds = .ok () ↔
    ∀ item ∈ s.items, s.includes item = true → item.descriptor.spec.Admits item.value := by
  rw [checkBounds, Steps.forM_eq_ok]
  simp only [List.mem_filter, and_imp]
  apply forall₂_congr
  intro item hi
  apply imp_congr_right
  intro _
  exact Setting.Descriptor.checkBounds_eq_ok (h item hi).1 (h item hi).2

theorem exists_of_checkBounds_eq_error {e : ProbeError} (h : s.checkBounds = .error e) :
    ∃ item ∈ s.items, s.includes item = true ∧
      item.descriptor.checkBounds item.key item.value = .error e := by
  obtain ⟨before, item, after, hsplit, _, hitem⟩ := Steps.forM_eq_error.1 h
  have hm : item ∈ s.items.filter s.includes := by
    rw [hsplit]
    simp
  obtain ⟨hi, hincl⟩ := List.mem_filter.1 hm
  exact ⟨item, hi, hincl, hitem⟩

/-- A failing check tells of a visible setting that is beyond its limits. -/
theorem checkBounds_eq_error {e : ProbeError} (h : s.Checkable) (he : s.checkBounds = .error e) :
    ∃ item ∈ s.items, s.includes item = true ∧ ¬ item.descriptor.spec.Admits item.value ∧
      item.descriptor.checkBounds item.key item.value = .error e := by
  obtain ⟨item, hi, hincl, hitem⟩ := exists_of_checkBounds_eq_error he
  refine ⟨item, hi, hincl, ?_, hitem⟩
  intro ha
  rw [(Setting.Descriptor.checkBounds_eq_ok (h item hi).1 (h item hi).2).2 ha] at hitem
  cases hitem

end Snapshot

theorem Draft.Over.checkable {op : Operation} {draft : Draft} (h : draft.Over op)
    (hw : op.WellFormed) : draft.snapshot.Checkable := by
  intro item hi
  obtain ⟨hf, ha⟩ := h.snapshot_item hi
  exact ⟨ha, hw.comparable _ (Table.find?_eq_some.1 hf)⟩

namespace Line

variable {s : Snapshot} {modifiers : Option Modifiers} {place : Nat} {word : String}

/-- The word at a place chooses an option that there is, or is the text of a number within its
limits unless an offset was added to it. -/
def Limited (s : Snapshot) (modifiers : Option Modifiers) (place : Nat) (word : String) : Prop :=
  ∃ item letter, s.items[place]? = some item ∧ item.descriptor.parameter = some letter ∧
    match item.value with
    | .boolean flag => word = Word.word letter (if flag then "1" else "0")
    | .choice index => word = Word.word letter (toString index.toNat) ∧
        index.toNat < item.descriptor.options.length
    | .number x => offsetAt? s modifiers place letter = none →
        word = Word.word letter (Word.number x) ∧ item.descriptor.spec.Admits (.number x)

theorem lt_options_of_admits {spec : Setting.Spec} {index : UInt64}
    (h : spec.Admits (.choice index)) : index.toNat < spec.options.length := by
  cases spec with
  | choice default options => exact h
  | _ => exact h.elim

theorem wordAt?_limited
    (h : ∀ item ∈ s.items, s.appears item = true → item.descriptor.spec.Admits item.value)
    (hword : wordAt? s modifiers place = some word) : Limited s modifiers place word := by
  obtain ⟨item, letter, hget, hl, happears, rfl⟩ := wordAt?_eq_some.1 hword
  have ha := h item (List.mem_of_getElem? hget) happears
  refine ⟨item, letter, hget, hl, ?_⟩
  cases hv : item.value with
  | boolean flag => simp [textOf, hv]
  | choice index =>
    rw [hv] at ha
    exact ⟨by simp [textOf, hv], lt_options_of_admits ha⟩
  | number x =>
    intro ho
    rw [hv] at ha
    exact ⟨by simp [textOf, hv, ho], ha⟩

end Line

end ProbeCycle
