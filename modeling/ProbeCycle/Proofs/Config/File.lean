import ProbeCycle.Proofs.FileTree
import ProbeCycle.Proofs.StoredDefaults

namespace ProbeCycle.Config

open Setting (Descriptor)

variable {c c' : Config} {files : FileTree} {path text : String} {format : Format}

/-- Every stored value belongs to a setting of a known operation, which accepts it. -/
theorem validate_iff : c.validate = .ok () ↔ isLevel c.logging.level = true ∧
    ∀ e ∈ c.defaults.entries, ∃ op, lookup e.1 = .ok op ∧
      ∀ v ∈ e.2.entries, ∃ d, op.settings.find? v.1 = some d ∧ d.Accepts (v.2.toValue d.kind) := by
  have hone (op : Operation) (v : String × StoredValue) :
      discard (resolve op v.1 v.2) = .ok () ↔
        ∃ d, op.settings.find? v.1 = some d ∧ d.Accepts (v.2.toValue d.kind) := by
    rw [Steps.discard_eq_ok, ← exists_gives]
    exact ⟨fun ⟨value, h⟩ => ⟨(v.1, value), rfl, h⟩, fun ⟨given, _, h⟩ => ⟨given.2, h⟩⟩
  have hoperation (e : String × Table StoredValue) : validateOperation e.1 e.2 = .ok () ↔
      ∃ op, lookup e.1 = .ok op ∧ ∀ v ∈ e.2.entries,
        ∃ d, op.settings.find? v.1 = some d ∧ d.Accepts (v.2.toValue d.kind) := by
    rw [validateOperation, Steps.bind_eq_ok]
    simp only [Steps.forM_eq_ok, hone]
  constructor
  · intro h
    have hl := isLevel_of_validate h
    rw [validate_of_level hl, Steps.mapError_eq_ok, Steps.forM_eq_ok] at h
    exact ⟨hl, fun e he => (hoperation e).1 (h e he)⟩
  · intro h
    rw [validate_of_level h.1, Steps.mapError_eq_ok, Steps.forM_eq_ok]
    exact fun e he => (hoperation e).2 (h.2 e he)

theorem Format.ofPath?_json (h : Path.suffix? path = some "json") :
    ofPath? path = some .json := by
  simp [ofPath?, h]

theorem Format.ofPath?_toml (h : Path.suffix? path = some "toml") :
    ofPath? path = some .toml := by
  simp [ofPath?, h]

theorem ofFile_eq_ok (h : Format.ofPath? path = some format) : ofFile path (.ok text) = .ok c ↔
    parse format text = .ok c ∧ c.validate = .ok () := by
  have hpass (c' : Config) : (do c'.validate; return c' : Except ConfigError Config) = .ok c ↔
      c' = c ∧ c.validate = .ok () := by
    rw [Steps.bind_eq_ok]
    constructor
    · rintro ⟨_, hv, he⟩
      cases he
      exact ⟨rfl, hv⟩
    · rintro ⟨rfl, hv⟩
      exact ⟨(), hv, rfl⟩
  simp only [ofFile, Except.mapError, Steps.bind_eq_ok, Except.ok.injEq, exists_eq_left', h, hpass]
  exact ⟨fun ⟨_, hp, he, hv⟩ => ⟨he ▸ hp, hv⟩, fun ⟨hp, hv⟩ => ⟨c, hp, rfl, hv⟩⟩

theorem result_reported (path : String) (loaded : Except ConfigError Config) :
    (reported path loaded).result = loaded := by
  cases loaded <;> rfl

/-- A valid configuration can be saved wherever a file can be stored, and loading gives what its
text stands for, if that is valid too. -/
theorem load_save (hv : c.validate = .ok ()) (hf : Format.ofPath? path = some format)
    (hw : files.Writable path) : (save files path c).failure = none ∧
      ∀ c', (load (save files path c).files path).result = .ok c' ↔
        parse format (c.render format) = .ok c' ∧ c'.validate = .ok () := by
  have hstored : (files.store path (.text (c.render format))).failure = none :=
    FileTree.store_failure_eq_none.2 hw
  rw [save, hv, hf]
  refine ⟨?_, fun c' => ?_⟩
  · dsimp only
    rw [hstored]
    rfl
  · rw [load, result_reported]
    dsimp only
    rw [FileTree.read_store hw, ofFile_eq_ok hf]

/-- Every form of stored value, numbers at the ends of what they can be, and an operation for which
nothing is stored. -/
def diverse : Config where
  logging := ⟨"WARN", true⟩
  output := ⟨false⟩
  defaults := .ofList [
    ("web", .ofList [("quick", .boolean false), ("axis", .integer 1)]),
    ("bore", .ofList [("diameter", .decimal (-0)), ("depth", .integer (-9223372036854775808)),
      ("overtravel", .decimal 1e300)]),
    ("boss", ∅)]

end ProbeCycle.Config
