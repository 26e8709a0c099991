import ProbeCycle.CommandLine.Run
import ProbeCycle.Proofs.Overrides
import ProbeCycle.Proofs.StoredDefaults
import ProbeCycle.Proofs.Text

namespace ProbeCycle.CommandLine

open Setting (Descriptor Value)

variable {config : Config} {request : CompileRequest} {op : Operation} {draft draft' : Draft}
  {entry text : String} {s : Snapshot} {m : Modifiers}

/-- The entry gives this value to this setting. The key stands before the first equals sign,
blanks around it aside, and all that follows the sign is the text of the value. -/
def Assigns (op : Operation) (entry : String) (given : String × Value) : Prop :=
  ∃ before after d, entry.toList = before ++ '=' :: after ∧ '=' ∉ before ∧
    given.1 = String.ofList (Text.trim before) ∧ op.settings.find? given.1 = some d ∧
    d.parse given.1 (String.ofList after) = .ok given.2

theorem Assigns.takes {given : String × Value} (h : Assigns op entry given) :
    op.Takes given.1 given.2 := by
  obtain ⟨_, _, d, _, _, _, hd, hp⟩ := h
  exact ⟨d, hd, Descriptor.accepts_of_parse hp⟩

theorem applyOverride_eq_ok (h : draft.Over op) : applyOverride draft entry = .ok draft' ↔
    ∃ given, Assigns op entry given ∧ draft' = draft.write given.1 given.2 := by
  unfold applyOverride
  constructor
  · intro ha
    split at ha
    · cases ha
    · rename_i key value hsplit
      obtain ⟨hentry, hn⟩ := Text.splitFirst?_eq_some.1 hsplit
      obtain ⟨d, v, hd, hp, rfl⟩ := Draft.setText_eq_ok.1 (Steps.mapError_eq_ok.1 ha)
      rw [h.descriptor?] at hd
      exact ⟨(_, v), ⟨key, value, d, hentry, hn, rfl, hd, hp⟩, rfl⟩
  · intro ha
    obtain ⟨⟨key, v⟩, ⟨before, after, d, hentry, hn, rfl, hd, hp⟩, rfl⟩ := ha
    rw [Text.splitFirst?_eq_some.2 ⟨hentry, hn⟩]
    apply Steps.mapError_eq_ok.2
    exact Draft.setText_eq_ok.2 ⟨d, v, (h.descriptor? _).trans hd, hp, rfl⟩

theorem applyOverrides_eq_ok (h : draft.Over op) (entries : List String) :
    entries.foldlM applyOverride draft = .ok draft' ↔
      ∃ typed, List.Forall₂ (Assigns op) entries typed ∧ draft' = draft.writeAll typed := by
  have hstep : ∀ (draft : Draft) entry draft', draft.Over op →
      (applyOverride draft entry = .ok draft' ↔
        ∃ given, Assigns op entry given ∧ draft' = draft.write given.1 given.2) :=
    fun _ _ _ h => applyOverride_eq_ok h
  have hkeep : ∀ (draft : Draft) entry (given : String × Value), draft.Over op →
      Assigns op entry given → (draft.write given.1 given.2).Over op :=
    fun _ _ _ h ha => h.write ha.takes
  exact Steps.foldlM_eq_ok hstep hkeep entries h

theorem takes_of_assigns {entries : List String} {typed : List (String × Value)}
    (h : List.Forall₂ (Assigns op) entries typed) : ∀ v ∈ typed, op.Takes v.1 v.2 :=
  Steps.forall_of_forall₂ (fun _ _ ha => ha.takes) h

theorem over_of_overrides (hop : lookup request.operation = .ok op)
    (hf : (config.applyDefaults (.ofOperation op)).failure = none)
    (ho : request.overrides.foldlM applyOverride (config.applyDefaults (.ofOperation op)).draft =
      .ok draft) : draft.Over op := by
  have hover := Draft.over_ofOperation (lookup_wellFormed hop)
  rw [Config.applyDefaults_ofOperation hop] at hf ho
  obtain ⟨stored, hstored, hdraft⟩ := (Config.layerAll_done hover _).1 ⟨hf, rfl⟩
  have hover' := hover.writeAll (Config.takes_of_gives hstored)
  rw [hdraft] at ho
  obtain ⟨typed, htyped, rfl⟩ := (applyOverrides_eq_ok hover' _).1 ho
  exact hover'.writeAll (takes_of_assigns htyped)

/-- The limits are looked at unless the configuration or the request says otherwise. -/
def checksBounds (config : Config) (request : CompileRequest) : Bool :=
  config.output.validateBounds && !request.noValidate

theorem prepare_eq_ok (hw : op.WellFormed) (h : draft.Over op) :
    prepare config request draft = .ok (s, m) ↔
      ∃ typed offsets, List.Forall₂ (Assigns op) request.overrides typed ∧
        List.Forall₂ (fun entry offset => Modifiers.parseEntry entry = .ok offset)
          request.modifiers offsets ∧
        s = (draft.writeAll typed).snapshot ∧ m = .ofList offsets ∧
        (checksBounds config request = true → s.checkBounds = .ok ()) := by
  simp only [prepare, Steps.bind_eq_ok, Steps.check_eq_ok, Steps.mapError_eq_ok, Steps.mapM_eq_ok,
    applyOverrides_eq_ok h]
  constructor
  · intro hp
    obtain ⟨_, ⟨typed, ht, rfl⟩, _, hb, hc, offsets, ho, hr⟩ := hp
    obtain ⟨_, rfl⟩ := Draft.build_eq_ok.1 hb
    cases hr
    exact ⟨typed, offsets, ht, ho, rfl, rfl, hc⟩
  · intro hp
    obtain ⟨typed, offsets, ht, ho, rfl, rfl, hc⟩ := hp
    have hb := (h.writeAll (takes_of_assigns ht)).build hw
    exact ⟨_, ⟨typed, ht, rfl⟩, _, hb, hc, offsets, ho, rfl⟩

/-- What a request is read as. -/
structure Plan where
  operation : Operation
  stored : List (String × Value)
  typed : List (String × Value)
  offsets : List (Char × Binary64)

namespace Plan

def values (p : Plan) : List (String × Value) := p.stored ++ p.typed

def snapshot (p : Plan) : Snapshot := (p.operation.holding p.values).snapshot

def modifiers (p : Plan) : Modifiers := .ofList p.offsets

def line (p : Plan) : String := compile p.operation.code p.snapshot (some p.modifiers)

/-- The stored values, the typed ones and the offsets, in order, are what the texts stand for. -/
structure Of (p : Plan) (config : Config) (request : CompileRequest) : Prop where
  operation : lookup request.operation = .ok p.operation
  stored : List.Forall₂ (Config.Gives p.operation) (config.storedFor p.operation) p.stored
  typed : List.Forall₂ (Assigns p.operation) request.overrides p.typed
  offsets : List.Forall₂ (fun entry offset => Modifiers.parseEntry entry = .ok offset)
    request.modifiers p.offsets

variable {p : Plan}

theorem Of.takes (h : p.Of config request) : ∀ v ∈ p.values, p.operation.Takes v.1 v.2 := by
  intro v hv
  rcases List.mem_append.1 hv with hv | hv
  · exact Config.takes_of_gives h.stored v hv
  · exact takes_of_assigns h.typed v hv

theorem Of.wellFormed (h : p.Of config request) : p.operation.WellFormed :=
  lookup_wellFormed h.operation

theorem Of.over (h : p.Of config request) : (p.operation.holding p.values).Over p.operation :=
  Operation.over_holding h.wellFormed h.takes

/-- Everything can be read as soon as each text can be. -/
theorem exists_of : (∃ p : Plan, p.Of config request) ↔
    ∃ op, lookup request.operation = .ok op ∧
      (∀ v ∈ config.storedFor op, ∃ given, Config.Gives op v given) ∧
      (∀ entry ∈ request.overrides, ∃ given, Assigns op entry given) ∧
      ∀ entry ∈ request.modifiers, ∃ offset, Modifiers.parseEntry entry = .ok offset := by
  constructor
  · intro h
    obtain ⟨p, hr⟩ := h
    exact ⟨p.operation, hr.operation, Steps.forall₂_exists.1 ⟨_, hr.stored⟩,
      Steps.forall₂_exists.1 ⟨_, hr.typed⟩, Steps.forall₂_exists.1 ⟨_, hr.offsets⟩⟩
  · intro h
    obtain ⟨op, hop, hstored, htyped, hoffsets⟩ := h
    obtain ⟨stored, hstored⟩ := Steps.forall₂_exists.2 hstored
    obtain ⟨typed, htyped⟩ := Steps.forall₂_exists.2 htyped
    obtain ⟨offsets, hoffsets⟩ := Steps.forall₂_exists.2 hoffsets
    exact ⟨⟨op, stored, typed, offsets⟩, hop, hstored, htyped, hoffsets⟩

end Plan

theorem compileCommand_of_lookup (hop : lookup request.operation = .ok op) :
    (compileCommand config request).result = .ok text ↔
      ∃ draft s m, ((config.applyDefaults (.ofOperation op)).failure = none ∧
        (config.applyDefaults (.ofOperation op)).draft = draft) ∧
        prepare config request draft = .ok (s, m) ∧ text = compile op.code s (some m) := by
  rw [compileCommand, hop]
  dsimp only
  cases hf : (config.applyDefaults (.ofOperation op)).failure with
  | some e => simp
  | none =>
    dsimp only
    cases hp : prepare config request (config.applyDefaults (.ofOperation op)).draft with
    | error e => simp [hp]
    | ok p => simp [hp, eq_comm, Prod.ext_iff]

/-- There is a line exactly if the request can be read and the check is passed, and then it is
the line of what was read. -/
theorem compileCommand_eq_ok : (compileCommand config request).result = .ok text ↔
    ∃ p : Plan, p.Of config request ∧
      (checksBounds config request = true → p.snapshot.checkBounds = .ok ()) ∧
      text = p.line := by
  cases hop : lookup request.operation with
  | error e =>
    have hr : (compileCommand config request).result = .error (.probe e) := by
      rw [compileCommand, hop]
    rw [hr]
    constructor
    · intro h
      cases h
    · intro h
      obtain ⟨r, hr, _⟩ := h
      have ho := hr.operation
      rw [hop] at ho
      cases ho
  | ok op =>
    have hw := lookup_wellFormed hop
    have hover := Draft.over_ofOperation hw
    rw [compileCommand_of_lookup hop, Config.applyDefaults_ofOperation hop]
    constructor
    · intro h
      obtain ⟨draft, s, m, hdone, hp, rfl⟩ := h
      obtain ⟨stored, hs, rfl⟩ := (Config.layerAll_done hover _).1 hdone
      have hover' := hover.writeAll (Config.takes_of_gives hs)
      obtain ⟨typed, offsets, ht, ho, rfl, rfl, hc⟩ := (prepare_eq_ok hw hover').1 hp
      rw [← Operation.holding, ← Operation.holding_append] at hc ⊢
      exact ⟨⟨op, stored, typed, offsets⟩, ⟨hop, hs, ht, ho⟩, hc, rfl⟩
    · intro h
      obtain ⟨⟨op', stored, typed, offsets⟩, hr, hc, rfl⟩ := h
      obtain rfl : op' = op := Except.ok.inj (hr.operation.symm.trans hop)
      have hover' := hover.writeAll (Config.takes_of_gives hr.stored)
      refine ⟨_, _, _, (Config.layerAll_done hover _).2 ⟨stored, hr.stored, rfl⟩,
        (prepare_eq_ok hw hover').2 ⟨typed, offsets, hr.typed, hr.offsets, rfl, rfl, ?_⟩, ?_⟩
      · rw [← Operation.holding, ← Operation.holding_append]
        exact hc
      · rw [← Operation.holding, ← Operation.holding_append]
        rfl

end ProbeCycle.CommandLine
