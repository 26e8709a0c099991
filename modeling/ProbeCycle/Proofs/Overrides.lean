import ProbeCycle.Line
import ProbeCycle.Proofs.Snapshot

namespace ProbeCycle

open Setting (Descriptor Value)

variable {op : Operation} {values : List (String × Value)} {key line : String} {s : Snapshot}
  {modifiers : Option Modifiers} {e : ProbeError}

/-- The draft of an operation with values in place of its defaults. -/
def Operation.holding (op : Operation) (values : List (String × Value)) : Draft :=
  (Draft.ofOperation op).writeAll values

theorem Operation.holding_append (op : Operation) (values later : List (String × Value)) :
    op.holding (values ++ later) = (op.holding values).writeAll later :=
  List.foldl_append

theorem Operation.over_holding (hw : op.WellFormed) (ht : ∀ v ∈ values, op.Takes v.1 v.2) :
    (op.holding values).Over op :=
  (Draft.over_ofOperation hw).writeAll ht

theorem Operation.value?_holding {d : Descriptor} (hd : op.settings.find? key = some d) :
    (op.holding values).snapshot.value? key =
      some ((values.reverse.lookup key).getD d.default) := by
  rw [Draft.value?_snapshot, holding, Draft.value?_writeAll, Draft.value?_ofOperation, hd]
  rfl

theorem overriddenSnapshot_eq_ok (hw : op.WellFormed) : overriddenSnapshot op values = .ok s ↔
    (∀ v ∈ values, op.Takes v.1 v.2) ∧ s = (op.holding values).snapshot := by
  rw [overriddenSnapshot, Steps.bind_eq_ok]
  constructor
  · intro h
    obtain ⟨draft, hrun, hbuild⟩ := h
    obtain ⟨ht, rfl⟩ := ((Draft.over_ofOperation hw).setAll_eq_ok values).1 hrun
    exact ⟨ht, (Draft.build_eq_ok.1 hbuild).2⟩
  · intro h
    obtain ⟨ht, rfl⟩ := h
    have hover := Operation.over_holding hw ht
    exact ⟨_, ((Draft.over_ofOperation hw).setAll_eq_ok values).2 ⟨ht, rfl⟩, hover.build hw⟩

theorem overriddenSnapshot_eq_error (hw : op.WellFormed) (values : List (String × Value)) :
    overriddenSnapshot op values = .error e ↔ ∃ before v after, values = before ++ v :: after ∧
      (∀ b ∈ before, op.Takes b.1 b.2) ∧ op.Refuses v.1 v.2 e := by
  have hover := Draft.over_ofOperation hw
  rw [overriddenSnapshot, Steps.bind_eq_error, ← hover.setAll_eq_error values]
  refine or_iff_left ?_
  intro h
  obtain ⟨draft, hrun, hbuild⟩ := h
  obtain ⟨ht, rfl⟩ := (hover.setAll_eq_ok values).1 hrun
  cases hbuild.symm.trans ((Operation.over_holding hw ht).build hw)

theorem compileOperation_eq_ok : compileOperation key values modifiers = .ok line ↔
    ∃ op, lookup key = .ok op ∧ (∀ v ∈ values, op.Takes v.1 v.2) ∧
      line = compile op.code (op.holding values).snapshot modifiers := by
  rw [compileOperation, Steps.bind_eq_ok]
  apply exists_congr
  intro op
  apply and_congr_right
  intro hop
  rw [Steps.bind_eq_ok]
  simp only [overriddenSnapshot_eq_ok (lookup_wellFormed hop), and_assoc, exists_and_left,
    exists_eq_left]
  simp only [pure, Except.pure, Except.ok.injEq, eq_comm]

/-- An error is that of the key, or of the first value that is refused. -/
theorem compileOperation_eq_error : compileOperation key values modifiers = .error e ↔
    (∀ op, lookup key ≠ .ok op) ∧ e = .unknownOperation key ∨
      ∃ op, lookup key = .ok op ∧ ∃ before v after, values = before ++ v :: after ∧
        (∀ b ∈ before, op.Takes b.1 b.2) ∧ op.Refuses v.1 v.2 e := by
  rw [← lookup_eq_error]
  cases hop : lookup key with
  | error cause => simp [compileOperation, hop, bind, Except.bind]
  | ok op =>
    simp only [reduceCtorEq, false_or, Except.ok.injEq, exists_eq_left',
      ← overriddenSnapshot_eq_error (lookup_wellFormed hop)]
    simp [compileOperation, hop, Steps.bind_eq_error, pure, Except.pure]

theorem Operation.Refuses.ne_unresolvedCondition (h : op.Refuses key value e)
    (setting controller : String) : e ≠ .unresolvedCondition setting controller := by
  unfold Refuses at h
  split at h
  · simp [h]
  · cases h <;> simp

end ProbeCycle
