import ProbeCycle.Proofs.CommandLine.Plan
import ProbeCycle.Proofs.Limits

namespace ProbeCycle.CommandLine

open Setting (Descriptor Value)

variable {config : Config} {request : CompileRequest} {p : Plan} {op : Operation}
  {draft : Draft} {s : Snapshot} {text : String}

theorem checksBounds_of (hv : config.output.validateBounds = true)
    (hn : request.noValidate = false) : checksBounds config request = true := by
  simp [checksBounds, hv, hn]

namespace Plan

theorem Of.checkable (h : p.Of config request) : p.snapshot.Checkable :=
  h.over.checkable h.wellFormed

theorem Of.includes_eq_appears (h : p.Of config request) {item : Snapshot.Item}
    (hi : item ∈ p.snapshot.items) : p.snapshot.includes item = p.snapshot.appears item :=
  Draft.includes_eq_appears (h.over.closed h.wellFormed) hi

theorem Of.line_eq_reference (h : p.Of config request) :
    p.line = Line.reference p.operation.code p.snapshot (some p.modifiers) :=
  Line.compile_eq_reference_of_appears (fun _ hi => h.includes_eq_appears hi) _ _

/-- What the plan holds is what the command goes through. -/
theorem Of.prepare (h : p.Of config request)
    (hc : checksBounds config request = true → p.snapshot.checkBounds = .ok ()) :
    prepare config request (config.applyDefaults (.ofOperation p.operation)).draft =
      .ok (p.snapshot, p.modifiers) := by
  have hover := Draft.over_ofOperation h.wellFormed
  have hstored := ((Config.layerAll_done hover _).2 ⟨_, h.stored, rfl⟩).2
  rw [Config.applyDefaults_ofOperation h.operation, hstored]
  apply (prepare_eq_ok h.wellFormed (hover.writeAll (Config.takes_of_gives h.stored))).2
  refine ⟨p.typed, p.offsets, h.typed, h.offsets, ?_, rfl, hc⟩
  rw [snapshot, values, Operation.holding_append]
  rfl

end Plan

private theorem limits_of_ok (hc : checksBounds config request = true)
    (h : (compileCommand config request).result = .ok text) : ∃ op s modifiers,
      lookup request.operation = .ok op ∧
      prepare config request (config.applyDefaults (.ofOperation op)).draft =
        .ok (s, modifiers) ∧
      text = compile op.code s (some modifiers) ∧
      compile op.code s (some modifiers) = Line.reference op.code s (some modifiers) ∧
      (∀ item ∈ s.items, s.includes item = true →
        op.settings.find? item.key = some item.descriptor ∧
          item.descriptor.spec.Admits item.value) ∧
      ∀ place word, Line.wordAt? s (some modifiers) place = some word →
        Line.Limited s (some modifiers) place word := by
  obtain ⟨p, hp, hbounds, rfl⟩ := compileCommand_eq_ok.1 h
  have hadmits := (Snapshot.checkBounds_eq_ok hp.checkable).1 (hbounds hc)
  refine ⟨p.operation, p.snapshot, p.modifiers, hp.operation, hp.prepare hbounds,
    rfl, hp.line_eq_reference, ?_, ?_⟩
  · intro item hi hincl
    exact ⟨(hp.over.snapshot_item hi).1, hadmits item hi hincl⟩
  · intro place word hword
    apply Line.wordAt?_limited _ hword
    intro item hi happears
    exact hadmits item hi ((hp.includes_eq_appears hi).trans happears)

/-- The check comes before the offsets are read, so a value beyond its limits is told of even if
they are no good. -/
theorem compileCommand_of_checkBounds {e : ProbeError} (hc : checksBounds config request = true)
    (hop : lookup request.operation = .ok op)
    (hf : (config.applyDefaults (.ofOperation op)).failure = none)
    (ho : request.overrides.foldlM applyOverride (config.applyDefaults (.ofOperation op)).draft =
      .ok draft) (hb : draft.build = .ok s) (he : s.checkBounds = .error e) :
    (compileCommand config request).result = .error (.probe e) := by
  have hp : prepare config request (config.applyDefaults (.ofOperation op)).draft =
      .error (.probe e) := by
    have hif : (config.output.validateBounds && !request.noValidate) = true := hc
    rw [CommandLine.prepare, ho]
    change (draft.build.mapError CommandError.probe >>= _) = _
    rw [hb, hif]
    change (s.checkBounds.mapError CommandError.probe >>= _) = _
    rw [he]
    rfl
  rw [compileCommand, hop]
  dsimp only
  rw [hf]
  dsimp only
  rw [hp]

private theorem error_of_limits (hc : checksBounds config request = true)
    (hop : lookup request.operation = .ok op)
    (hf : (config.applyDefaults (.ofOperation op)).failure = none)
    (ho : request.overrides.foldlM applyOverride (config.applyDefaults (.ofOperation op)).draft =
      .ok draft) :
    ∃ s, draft.build = .ok s ∧
      ((∃ item ∈ s.items, s.includes item = true ∧
        ¬ item.descriptor.spec.Admits item.value) →
      ∃ item ∈ s.items, s.includes item = true ∧ ∃ e,
        item.descriptor.checkBounds item.key item.value = .error e ∧
          (compileCommand config request).result = .error (.probe e)) := by
  have hw := lookup_wellFormed hop
  have hover := over_of_overrides hop hf ho
  have hbuild := hover.build hw
  refine ⟨_, hbuild, ?_⟩
  intro hbeyond
  obtain ⟨item, hi, hincl, hnot⟩ := hbeyond
  cases hcheck : draft.snapshot.checkBounds with
  | ok _ =>
    have hall := (Snapshot.checkBounds_eq_ok (hover.checkable hw)).1 hcheck
    exact absurd (hall item hi hincl) hnot
  | error e =>
    obtain ⟨item', hi', hincl', _, he⟩ :=
      Snapshot.checkBounds_eq_error (hover.checkable hw) hcheck
    exact ⟨item', hi', hincl', e, he, compileCommand_of_checkBounds hc hop hf ho hbuild hcheck⟩

/-- A line is written only of values within their limits, and a value beyond them is an error. -/
theorem compileCommand_within_limits (config : Config) (request : CompileRequest)
    (hv : config.output.validateBounds = true) (hn : request.noValidate = false) :
    (∀ text, (compileCommand config request).result = .ok text → ∃ op s modifiers,
      lookup request.operation = .ok op ∧
      prepare config request (config.applyDefaults (.ofOperation op)).draft =
        .ok (s, modifiers) ∧
      text = compile op.code s (some modifiers) ∧
      compile op.code s (some modifiers) = Line.reference op.code s (some modifiers) ∧
      (∀ item ∈ s.items, s.includes item = true →
        op.settings.find? item.key = some item.descriptor ∧
          item.descriptor.spec.Admits item.value) ∧
      ∀ place word, Line.wordAt? s (some modifiers) place = some word →
        Line.Limited s (some modifiers) place word) ∧
    ∀ op draft, lookup request.operation = .ok op →
      (config.applyDefaults (.ofOperation op)).failure = none →
      request.overrides.foldlM applyOverride (config.applyDefaults (.ofOperation op)).draft =
        .ok draft →
      ∃ s, draft.build = .ok s ∧
        ((∃ item ∈ s.items, s.includes item = true ∧
          ¬ item.descriptor.spec.Admits item.value) →
        ∃ item ∈ s.items, s.includes item = true ∧ ∃ e,
          item.descriptor.checkBounds item.key item.value = .error e ∧
            (compileCommand config request).result = .error (.probe e)) :=
  ⟨fun _ => limits_of_ok (checksBounds_of hv hn),
    fun _ _ => error_of_limits (checksBounds_of hv hn)⟩

def withinLimits : CompileRequest := ⟨"web", ["axis=y", " width = 25"], ["n=3", "H=-2"], false⟩

/-- A width that no machine takes, and an offset that cannot be read. -/
def beyondLimits : CompileRequest := ⟨"web", ["width=400"], ["H"], false⟩

theorem compileCommand_within_limits_web :
    (∃ op s modifiers, lookup "web" = .ok op ∧
      compile op.code s (some modifiers) = "G6504.1 Q1 N1 H23 Z5 T10 O2" ∧
      ∀ place word, Line.wordAt? s (some modifiers) place = some word →
        Line.Limited s (some modifiers) place word) ∧
    ∃ e, (compileCommand .standard beyondLimits).result = .error (.probe e) := by
  have hline : (compileCommand .standard withinLimits).result =
      .ok "G6504.1 Q1 N1 H23 Z5 T10 O2" := by decide +kernel
  have hassigns : Assigns Catalog.web "width=400" ("width", .number 400) :=
    ⟨"width".toList, "400".toList, _, by decide, by decide, by decide, rfl, by decide +kernel⟩
  have hop : lookup "web" = .ok Catalog.web := rfl
  have hover := Draft.over_ofOperation (lookup_wellFormed hop)
  have hdraft := (applyOverrides_eq_ok hover beyondLimits.overrides).2
    ⟨[("width", .number 400)], .cons hassigns .nil, rfl⟩
  have hitem : ∃ item ∈ (Catalog.web.holding [("width", .number 400)]).snapshot.items,
      (Catalog.web.holding [("width", .number 400)]).snapshot.includes item = true ∧
        ¬ item.descriptor.spec.Admits item.value := by decide +kernel
  constructor
  · obtain ⟨op, s, modifiers, hop, _, htext, _, _, hwords⟩ :=
      (compileCommand_within_limits .standard withinLimits rfl rfl).1 _ hline
    exact ⟨op, s, modifiers, hop, htext.symm, hwords⟩
  · obtain ⟨s, hs, herror⟩ :=
      (compileCommand_within_limits .standard beyondLimits rfl rfl).2 Catalog.web _ rfl rfl hdraft
    obtain ⟨_, rfl⟩ := Draft.build_eq_ok.1 hs
    obtain ⟨_, _, _, e, _, he⟩ := herror hitem
    exact ⟨e, he⟩

end ProbeCycle.CommandLine
