import ProbeCycle.Proofs.CommandLine.Plan
import ProbeCycle.Proofs.Modifiers

namespace ProbeCycle.CommandLine

open Setting (Descriptor Value)

variable {config : Config} {request : CompileRequest} {p : Plan} {text : String}

/-- What a request gives when the limits are not looked at. -/
def unchecked (config : Config) (request : CompileRequest) : Except CommandError String :=
  (compileCommand config { request with noValidate := true }).result

theorem unchecked_eq_ok : unchecked config request = .ok text ↔
    ∃ p : Plan, p.Of config request ∧ text = p.line := by
  rw [unchecked, compileCommand_eq_ok]
  constructor
  · intro h
    obtain ⟨p, hp, _, ht⟩ := h
    exact ⟨p, ⟨hp.operation, hp.stored, hp.typed, hp.offsets⟩, ht⟩
  · intro h
    obtain ⟨p, hp, ht⟩ := h
    have hc : checksBounds config { request with noValidate := true } = false := by
      simp [checksBounds]
    exact ⟨p, ⟨hp.operation, hp.stored, hp.typed, hp.offsets⟩, by simp [hc], ht⟩

namespace Plan

theorem Of.compileOperation (h : p.Of config request) :
    compileOperation request.operation (p.stored ++ p.typed) (some (.ofList p.offsets)) =
      .ok p.line :=
  compileOperation_eq_ok.2 ⟨p.operation, h.operation, h.takes, rfl⟩

theorem Of.overriddenSnapshot (h : p.Of config request) :
    overriddenSnapshot p.operation (p.stored ++ p.typed) = .ok p.snapshot :=
  (overriddenSnapshot_eq_ok h.wellFormed).2 ⟨h.takes, rfl⟩

/-- The last typed value stands, without one the stored value, without that the default. -/
theorem Of.value?_snapshot (h : p.Of config request) {key : String} {d : Descriptor}
    (hd : p.operation.settings.find? key = some d) : p.snapshot.value? key =
      some (((p.typed.reverse.lookup key).or (p.stored.lookup key)).getD d.default) := by
  rw [snapshot, Operation.value?_holding hd, values, List.reverse_append, List.lookup_append,
    Table.lookup_reverse (Config.nodup_given h.stored)]

end Plan

/-- The command line and the library make the same line from the same values. -/
theorem compileCommand_agrees_with_compileOperation (config : Config) (request : CompileRequest) :
    ((∃ text, unchecked config request = .ok text) ↔
      ∃ op, lookup request.operation = .ok op ∧
        (∀ v ∈ config.storedFor op, ∃ d, op.settings.find? v.1 = some d ∧
          d.Accepts (v.2.toValue d.kind)) ∧
        (∀ entry ∈ request.overrides, ∃ given, Assigns op entry given) ∧
        ∀ entry ∈ request.modifiers, ∃ offset, Modifiers.parseEntry entry = .ok offset) ∧
    (∀ text, unchecked config request = .ok text →
      ∃ p : Plan, p.Of config request ∧ text = p.line) ∧
    (∀ p : Plan, p.Of config request →
      unchecked config request = .ok p.line ∧
      compileOperation request.operation (p.stored ++ p.typed) (some (.ofList p.offsets)) =
        .ok p.line ∧
      (∀ letter, (Modifiers.ofList p.offsets).get? letter =
        (p.offsets.reverse.find? fun e => e.1.toUpper == letter.toUpper).map Prod.snd) ∧
      overriddenSnapshot p.operation (p.stored ++ p.typed) = .ok p.snapshot ∧
      ∀ key d, p.operation.settings.find? key = some d → p.snapshot.value? key =
        some (((p.typed.reverse.lookup key).or (p.stored.lookup key)).getD d.default)) ∧
    ∀ output text, (compileCommand { config with output } request).result = .ok text →
      unchecked config request = .ok text := by
  refine ⟨?_, fun _ => unchecked_eq_ok.1, ?_, ?_⟩
  · have hp : (∃ text, unchecked config request = .ok text) ↔ ∃ p : Plan, p.Of config request := by
      simp only [unchecked_eq_ok]
      constructor
      · intro h
        obtain ⟨_, p, hp, _⟩ := h
        exact ⟨p, hp⟩
      · intro h
        obtain ⟨p, hp⟩ := h
        exact ⟨p.line, p, hp, rfl⟩
    rw [hp, Plan.exists_of]
    simp only [Config.exists_gives]
  · intro p hp
    exact ⟨unchecked_eq_ok.2 ⟨p, hp, rfl⟩, hp.compileOperation,
      Modifiers.get?_ofList p.offsets, hp.overriddenSnapshot, fun _ _ hd => hp.value?_snapshot hd⟩
  · intro output text h
    obtain ⟨p, hp, _, ht⟩ := compileCommand_eq_ok.1 h
    exact unchecked_eq_ok.2 ⟨p, ⟨hp.operation, hp.stored, hp.typed, hp.offsets⟩, ht⟩

/-- A stored diameter gives way to a typed one, a stored depth does not, and the later of two
offsets counts. -/
example : unchecked { Config.standard with
      defaults := .ofList [("bore", .ofList [("diameter", .integer 30), ("depth", .integer 8)])] }
    ⟨"bore", [" diameter = 12.5"], ["h=1", "H=-2"], false⟩ = .ok "G6500.1 H10.5 Z8 O2" := by
  decide +kernel

end ProbeCycle.CommandLine
