import ProbeCycle.Config.Layer

namespace ProbeCycle

open Setting (Descriptor Value)

/-- Work on a draft in place, where a failure does not take back what was done before it. -/
abbrev Work (α : Type) := EStateM ConfigError Draft α

namespace Work

variable {α β : Type} {draft : Draft}

/-- Look something up or check it; the draft stays as it is. -/
def ask (question : Draft → Except ProbeError α) : Work α := fun draft =>
  match question draft with
  | .ok a => .ok a draft
  | .error e => .error (.probe e) draft

def put (key : String) (entry : Draft.Entry) : Work Unit :=
  modify fun draft => { draft with entries := draft.entries.insert key entry }

def add (key : String) (descriptor : Descriptor) : Work Unit :=
  put key ⟨descriptor, descriptor.default⟩

def addWith (key : String) (descriptor : Descriptor) (value : Value) : Work Unit := do
  let value ← ask fun _ => descriptor.accept key value
  put key ⟨descriptor, value⟩

def set (key : String) (value : Value) : Work Unit := do
  let entry ← ask (·.entry key)
  let value ← ask fun _ => entry.descriptor.accept key value
  put key { entry with value }

def setText (key input : String) : Work Unit := do
  let entry ← ask (·.entry key)
  let value ← ask fun _ => entry.descriptor.parse key input
  set key value

def layerOne (op : Operation) (key : String) (stored : StoredValue) : Work Unit := do
  let value ← ask fun _ => Config.resolve op key stored
  set key value

def layer (config : Config) : Work Unit := do
  match config.defaults.find? (← get).operation with
  | none => return ()
  | some values =>
    let op ← ask fun draft => lookup draft.operation
    values.entries.forM fun (key, stored) => layerOne op key stored

/-- How a step that gives a new draft or fails ends: if it fails, with the draft as it was. -/
def ending (draft : Draft) : Except ProbeError Draft → EStateM.Result ConfigError Draft Unit
  | .ok draft' => .ok () draft'
  | .error e => .error (.probe e) draft

theorem ending_eq_ok {later : Draft} {r : Except ProbeError Draft} :
    ending draft r = .ok () later ↔ r = .ok later := by
  cases r <;> simp [ending]

theorem run_ask_bind (question : Draft → Except ProbeError α) (rest : α → Work β) :
    (ask question >>= rest).run draft = match question draft with
      | .ok a => (rest a).run draft
      | .error e => .error (.probe e) draft := by
  change EStateM.bind (ask question) rest draft = _
  unfold EStateM.bind ask
  cases question draft <;> rfl

theorem run_addWith (key : String) (descriptor : Descriptor) (value : Value) :
    (addWith key descriptor value).run draft =
      ending draft (draft.addWith key descriptor value) := by
  rw [addWith, run_ask_bind, Draft.addWith]
  cases descriptor.accept key value <;> rfl

theorem run_set (key : String) (value : Value) :
    (set key value).run draft = ending draft (draft.set key value) := by
  rw [set, run_ask_bind, Draft.set]
  cases draft.entry key with
  | error e => rfl
  | ok entry =>
    dsimp only
    rw [run_ask_bind]
    cases h : entry.descriptor.accept key value with
    | error e => simp only [bind, Except.bind, h]; rfl
    | ok value => simp only [bind, Except.bind, h]; rfl

theorem run_setText (key input : String) :
    (setText key input).run draft = ending draft (draft.setText key input) := by
  rw [setText, run_ask_bind, Draft.setText]
  cases draft.entry key with
  | error e => rfl
  | ok entry =>
    dsimp only
    rw [run_ask_bind]
    cases h : entry.descriptor.parse key input with
    | error e => simp only [bind, Except.bind, h]; rfl
    | ok value => simp only [bind, Except.bind, h, run_set]

theorem run_layerOne (op : Operation) (key : String) (stored : StoredValue) :
    (layerOne op key stored).run draft =
      ending draft ((Config.layerOne op draft key stored).map Prod.fst) := by
  rw [layerOne, run_ask_bind, Config.layerOne]
  cases Config.resolve op key stored with
  | error e => rfl
  | ok value =>
    dsimp only
    rw [run_set]
    cases h : draft.set key value <;> simp only [bind, Except.bind, h] <;> rfl

/-- How laying stored values over a draft ends: with all that went in. -/
def layered (l : Config.Layering) : EStateM.Result ConfigError Draft Unit :=
  match l.failure with
  | none => .ok () l.draft
  | some e => .error e l.draft

theorem run_layerAll (op : Operation) (values : List (String × StoredValue)) :
    (values.forM fun (key, stored) => layerOne op key stored : Work Unit).run draft =
      layered (Config.layerAll op draft values) := by
  induction values generalizing draft with
  | nil => rfl
  | cons v rest ih =>
    obtain ⟨key, stored⟩ := v
    have hone : (layerOne op key stored).run draft =
        ending draft ((Config.layerOne op draft key stored).map Prod.fst) :=
      run_layerOne op key stored
    change EStateM.bind (layerOne op key stored)
      (fun _ => rest.forM fun (key, stored) => layerOne op key stored) draft = _
    change layerOne op key stored draft = _ at hone
    unfold EStateM.bind
    rw [hone, Config.layerAll]
    cases Config.layerOne op draft key stored with
    | error e => rfl
    | ok result => exact ih

theorem run_layer (config : Config) :
    (layer config).run draft = layered (config.applyDefaults draft) := by
  change (match config.defaults.find? draft.operation with
    | none => pure ()
    | some values => _ : Work Unit).run draft = _
  rw [Config.applyDefaults]
  cases config.defaults.find? draft.operation with
  | none => rfl
  | some values =>
    dsimp only
    rw [run_ask_bind]
    cases lookup draft.operation with
    | error e => rfl
    | ok op => exact run_layerAll op values.entries

end Work

end ProbeCycle
