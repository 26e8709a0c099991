import ProbeCycle.Proofs.CommandLine.Limits
import ProbeCycle.Proofs.LineText
import ProbeCycle.Proofs.Modifiers

namespace ProbeCycle

theorem Modifiers.isFinite_of_parseEntry {input : String} {entry : Char × Binary64}
    (h : parseEntry input = .ok entry) : entry.2.isFinite = true := by
  have hentry : entry? input.toList = some entry := by
    unfold parseEntry at h
    split at h
    · rename_i he
      exact he.trans (congrArg some (Except.ok.inj h))
    · cases h
  obtain ⟨⟨before, after⟩, _, hrest⟩ := Option.bind_eq_some_iff.1 hentry
  dsimp only at hrest
  split at hrest
  · obtain ⟨offset, _, hoffset⟩ := Option.bind_eq_some_iff.1 hrest
    split at hoffset
    · rename_i hfinite
      cases hoffset
      exact (Bool.and_eq_true_iff.1 hfinite).2
    · cases hoffset
  · cases hrest

theorem Modifiers.finite_ofList {entries : List (Char × Binary64)}
    (h : ∀ entry ∈ entries, entry.2.isFinite = true) : (ofList entries).Finite := by
  intro letter offset hget
  rw [get?_ofList] at hget
  obtain ⟨entry, hfind, rfl⟩ := Option.map_eq_some_iff.1 hget
  exact h entry (List.mem_reverse.1 (List.mem_of_find?_eq_some hfind))

/-- The limits are given, and no offset takes a number between them beyond the finite ones. -/
def Setting.Spec.isBounded : Setting.Spec → Bool
  | .number _ lower upper _ => lower.any Binary64.isModerate && upper.any Binary64.isModerate
  | _ => true

theorem Setting.Spec.isModerate_of_admits {spec : Setting.Spec} {x : Binary64}
    (hb : spec.isBounded = true) (ha : spec.Admits (.number x)) : x.isModerate = true := by
  cases spec with
  | number default lower upper step =>
    obtain ⟨hx, hlower, hupper⟩ := ha
    obtain ⟨hl, hu⟩ := Bool.and_eq_true_iff.1 hb
    obtain ⟨l, rfl, hl⟩ := (Option.any_eq_true _ _).1 hl
    obtain ⟨u, rfl, hu⟩ := (Option.any_eq_true _ _).1 hu
    exact Binary64.isModerate_of_between hl hu (hlower l rfl) (hupper u rfl) hx
  | boolean flag => exact ha.elim
  | choice default options => exact ha.elim

/-- The words of the operation are made of upper-case letters and finite numbers. -/
structure Operation.Presentable (op : Operation) : Prop where
  code : op.code.isFinite = true
  letters : ∀ e ∈ op.settings.entries, e.2.parameter.all Char.isUpper = true
  multipliers : ∀ e ∈ op.settings.entries, e.2.multiplier = 1 ∨ e.2.multiplier = -1
  bounded : ∀ e ∈ op.settings.entries, e.2.spec.isBounded = true

instance (op : Operation) : Decidable op.Presentable :=
  decidable_of_iff
    (op.code.isFinite = true ∧
      (∀ e ∈ op.settings.entries, e.2.parameter.all Char.isUpper = true) ∧
      (∀ e ∈ op.settings.entries, e.2.multiplier = 1 ∨ e.2.multiplier = -1) ∧
      ∀ e ∈ op.settings.entries, e.2.spec.isBounded = true)
    ⟨fun h => ⟨h.1, h.2.1, h.2.2.1, h.2.2.2⟩,
      fun h => ⟨h.code, h.letters, h.multipliers, h.bounded⟩⟩

private theorem Catalog.standard_presentable :
    ∀ e ∈ standard.operations.entries, e.2.Presentable := by
  decide +kernel

theorem lookup_presentable {key : String} {op : Operation} (h : lookup key = .ok op) :
    op.Presentable :=
  Catalog.standard_presentable _ (Table.find?_eq_some.1 (Catalog.lookup_eq_ok.1 h))

namespace CommandLine

variable {config : Config} {request : CompileRequest} {p : Plan} {text : String}

namespace Plan

theorem Of.mem_settings (h : p.Of config request) {item : Snapshot.Item}
    (hi : item ∈ p.snapshot.items) :
    (item.key, item.descriptor) ∈ p.operation.settings.entries :=
  Table.find?_eq_some.1 (h.over.snapshot_item hi).1

theorem Of.presentable (h : p.Of config request) : p.snapshot.Presentable := by
  have hop := lookup_presentable h.operation
  constructor
  · intro item hi letter hl
    have hall := hop.letters _ (h.mem_settings hi)
    rw [hl] at hall
    exact hall
  · intro item hi
    exact hop.multipliers _ (h.mem_settings hi)
  · intro item hi
    exact (h.over.snapshot_item hi).2.2

theorem Of.finite_modifiers (h : p.Of config request) : p.modifiers.Finite := by
  have hread : ∀ input (entry : Char × Binary64), Modifiers.parseEntry input = .ok entry →
      entry.2.isFinite = true := fun _ _ => Modifiers.isFinite_of_parseEntry
  exact Modifiers.finite_ofList (Steps.forall_of_forall₂ hread h.offsets)

/-- A number within its limits stays finite under every offset that can be typed. -/
theorem Of.not_overflows (h : p.Of config request) (hb : p.snapshot.checkBounds = .ok ())
    (place : Nat) : ¬ Line.Overflows p.snapshot (some p.modifiers) place := by
  intro hover
  obtain ⟨item, letter, hget, happears, _, x, offset, hvalue, hoffset, hinf⟩ := hover
  have hi := List.mem_of_getElem? hget
  have hadmits := (Snapshot.checkBounds_eq_ok h.checkable).1 hb item hi
    ((h.includes_eq_appears hi).trans happears)
  rw [hvalue] at hadmits
  have hop := lookup_presentable h.operation
  have hx := Setting.Spec.isModerate_of_admits (hop.bounded _ (h.mem_settings hi)) hadmits
  have hproduct := Binary64.isModerate_multiply hx (h.presentable.multipliers item hi)
  have hsum := Binary64.isFinite_add hproduct
    (Line.isFinite_offsetAt? h.finite_modifiers hoffset)
  rw [hsum] at hinf
  cases hinf

end Plan

/-- A line is well-formed unless an offset takes a number beyond the finite ones; then `inf` or
`-inf` is written, which cannot happen where the limits are looked at. -/
theorem compileCommand_wellFormed_iff (config : Config) (request : CompileRequest) :
    (∀ text, (compileCommand config request).result = .ok text →
      ∃ p : Plan, p.Of config request ∧ text = p.line ∧
        Line.Spelled (fun cs => Text.Plain cs ∨ Text.Infinite cs) text ∧
        (Line.WellFormed text ↔
          ∀ place, ¬ Line.Overflows p.snapshot (some p.modifiers) place)) ∧
    (checksBounds config request = true →
      ∀ text, (compileCommand config request).result = .ok text → Line.WellFormed text) := by
  have hspelled : ∀ p : Plan, p.Of config request →
      Line.Spelled (fun cs => Text.Plain cs ∨ Text.Infinite cs) p.line ∧
        (Line.WellFormed p.line ↔
          ∀ place, ¬ Line.Overflows p.snapshot (some p.modifiers) place) := by
    intro p hp
    rw [hp.line_eq_reference]
    exact Line.reference_spelled (lookup_presentable hp.operation).code hp.presentable
      hp.finite_modifiers
  constructor
  · intro text h
    obtain ⟨p, hp, _, rfl⟩ := compileCommand_eq_ok.1 h
    exact ⟨p, hp, rfl, hspelled p hp⟩
  · intro hc text h
    obtain ⟨p, hp, hb, rfl⟩ := compileCommand_eq_ok.1 h
    exact (hspelled p hp).2.2 (hp.not_overflows (hb hc))

/-- The greatest offset that is read as a finite number, and a negative multiplier. -/
def greatestOffset : CompileRequest :=
  ⟨"bore", ["depth=20"], ["Z=1.7976931348623158e308"], false⟩

theorem compileCommand_wellFormed_greatestOffset : ∃ text,
    (compileCommand .standard greatestOffset).result = .ok text ∧ Line.WellFormed text := by
  obtain ⟨text, htext⟩ := Steps.cause?_eq_none.1
    (show Steps.cause? (compileCommand .standard greatestOffset).result = none by decide +kernel)
  exact ⟨text, htext,
    (compileCommand_wellFormed_iff .standard greatestOffset).2 (by decide) text htext⟩

/-- A diameter and an offset that are finite each, and not together. -/
def infiniteDiameter : CompileRequest := ⟨"bore", ["diameter=1e308"], ["H=1e308"], true⟩

theorem compileCommand_infiniteDiameter :
    (compileCommand .standard infiniteDiameter).result = .ok "G6500.1 Hinf Z5 O2" ∧
      ¬ Line.WellFormed "G6500.1 Hinf Z5 O2" := by
  refine ⟨by decide +kernel, ?_⟩
  intro h
  exact absurd (h.upper_or_numeric (c := 'i') (by decide) (by decide)) (by decide)

end CommandLine

end ProbeCycle
