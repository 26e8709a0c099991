import ProbeCycle.Config.File
import ProbeCycle.Config.Layer
import ProbeCycle.Proofs.Draft

namespace ProbeCycle.Config

open Setting (Descriptor Value)

variable {c : Config} {op : Operation} {draft draft' : Draft} {key : String}
  {stored : StoredValue} {value : Value}

/-- The stored value gives this value to the setting of the same key. -/
def Gives (op : Operation) (stored : String × StoredValue) (given : String × Value) : Prop :=
  given.1 = stored.1 ∧ resolve op stored.1 stored.2 = .ok given.2

/-- The values stored for an operation, in order. -/
def storedFor (c : Config) (op : Operation) : List (String × StoredValue) :=
  ((c.defaults.find? op.key).map Table.entries).getD []

/-- What a setting holds once the stored values are laid over the defaults: what the value stored
for it gives, and its default if none is. -/
def Settles (c : Config) (op : Operation) (key : String) (d : Descriptor) (value : Value) : Prop :=
  match (c.defaults.find? op.key).bind (·.find? key) with
  | some stored => resolve op key stored = .ok value
  | none => value = d.default

theorem takes_of_resolve (h : resolve op key stored = .ok value) : op.Takes key value := by
  unfold resolve at h
  split at h
  · rename_i d hd
    obtain ⟨ha, hv⟩ := Descriptor.accept_eq_ok.1 h
    exact ⟨d, hd, hv ▸ ha⟩
  · cases h

/-- The value names a setting of the operation, which accepts what it stands for there. -/
theorem exists_gives {v : String × StoredValue} : (∃ given, Gives op v given) ↔
    ∃ d, op.settings.find? v.1 = some d ∧ d.Accepts (v.2.toValue d.kind) := by
  unfold Gives resolve
  constructor
  · intro h
    obtain ⟨_, _, hr⟩ := h
    split at hr
    · rename_i d hd
      exact ⟨d, hd, (Descriptor.accept_eq_ok.1 hr).1⟩
    · cases hr
  · intro h
    obtain ⟨d, hd, ha⟩ := h
    refine ⟨(v.1, v.2.toValue d.kind), rfl, ?_⟩
    rw [hd]
    exact Descriptor.accept_eq_ok.2 ⟨ha, rfl⟩

theorem takes_of_gives {values : List (String × StoredValue)} {given : List (String × Value)}
    (h : List.Forall₂ (Gives op) values given) : ∀ v ∈ given, op.Takes v.1 v.2 :=
  Steps.forall_of_forall₂ (fun _ _ hv => takes_of_resolve (hv.1 ▸ hv.2)) h

theorem layerOne_of_ok (h : draft.Over op) (hr : resolve op key stored = .ok value) :
    layerOne op draft key stored = .ok (draft.write key value, value) := by
  have hs : draft.set key value = .ok (draft.write key value) :=
    h.set_eq_ok.2 ⟨takes_of_resolve hr, rfl⟩
  rw [layerOne, hr]
  show (draft.set key value >>= fun d => pure (d, value)) = _
  rw [hs]
  rfl

theorem layerOne_of_error {e : ProbeError} (hr : resolve op key stored = .error e) :
    layerOne op draft key stored = .error e := by
  rw [layerOne, hr]
  rfl

/-- The draft refuses nothing that the operation has let through, so only the check decides. -/
theorem layerAll_failure (h : draft.Over op) (values : List (String × StoredValue)) :
    (layerAll op draft values).failure =
      (Steps.cause? (values.forM fun (setting, stored) =>
        discard (resolve op setting stored))).map .probe := by
  induction values generalizing draft with
  | nil => rfl
  | cons v rest ih =>
    obtain ⟨key, stored⟩ := v
    change _ = Option.map ConfigError.probe (Steps.cause?
      (discard (resolve op key stored) >>= fun _ =>
        rest.forM fun (setting, stored) => discard (resolve op setting stored)))
    rw [layerAll]
    cases hr : resolve op key stored with
    | error e =>
      rw [layerOne_of_error hr]
      rfl
    | ok value =>
      rw [layerOne_of_ok h hr]
      exact ih (h.write (takes_of_resolve hr))

theorem layerAll_draft (h : draft.Over op) {values : List (String × StoredValue)}
    {given : List (String × Value)} (hg : List.Forall₂ (Gives op) values given) :
    (layerAll op draft values).draft = draft.writeAll given := by
  induction hg generalizing draft with
  | nil => rfl
  | cons hv _ ih =>
    obtain ⟨hk, hr⟩ := hv
    rw [layerAll, layerOne_of_ok h hr, ← hk]
    exact ih (h.write (hk ▸ takes_of_resolve hr))

/-- All stored values go in exactly if each of them gives one, and then these are written. -/
theorem layerAll_done (h : draft.Over op) (values : List (String × StoredValue)) :
    (layerAll op draft values).failure = none ∧ (layerAll op draft values).draft = draft' ↔
      ∃ given, List.Forall₂ (Gives op) values given ∧ draft' = draft.writeAll given := by
  rw [layerAll_failure h, Option.map_eq_none_iff, Steps.cause?_eq_none]
  constructor
  · intro hl
    obtain ⟨⟨_, hv⟩, rfl⟩ := hl
    have hr : ∀ v ∈ values, ∃ w, Gives op v w := by
      intro v hm
      obtain ⟨value, hv⟩ := Steps.discard_eq_ok.1 (Steps.forM_eq_ok.1 hv v hm)
      exact ⟨(v.1, value), rfl, hv⟩
    obtain ⟨given, hg⟩ := Steps.forall₂_exists.2 hr
    exact ⟨given, hg, layerAll_draft h hg⟩
  · intro hl
    obtain ⟨given, hg, rfl⟩ := hl
    refine ⟨⟨(), Steps.forM_eq_ok.2 ?_⟩, layerAll_draft h hg⟩
    intro v hv
    obtain ⟨w, _, hw⟩ := Steps.forall₂_exists.1 ⟨given, hg⟩ v hv
    exact Steps.discard_eq_ok.2 ⟨w.2, hw⟩

theorem applyDefaults_ofOperation (hop : lookup key = .ok op) :
    c.applyDefaults (.ofOperation op) = layerAll op (.ofOperation op) (c.storedFor op) := by
  have hl : lookup op.key = .ok op := (lookup_key hop).symm ▸ hop
  unfold applyDefaults storedFor
  rw [Draft.operation_ofOperation]
  cases c.defaults.find? op.key with
  | none => rfl
  | some values =>
    rw [hl]
    rfl

theorem validateOperation_of_lookup (hop : lookup key = .ok op) (values : Table StoredValue) :
    validateOperation key values =
      values.entries.forM fun (setting, stored) => discard (resolve op setting stored) := by
  rw [validateOperation, hop]
  rfl

/-- Laying the values of a known operation over its draft ends as checking them does. -/
theorem applyDefaults_failure (hop : lookup key = .ok op) {values : Table StoredValue}
    (hv : c.defaults.find? key = some values) :
    (c.applyDefaults (.ofOperation op)).failure =
      (Steps.cause? (validateOperation key values)).map .probe := by
  have hs : c.storedFor op = values.entries := by
    rw [storedFor, lookup_key hop, hv]
    rfl
  rw [applyDefaults_ofOperation hop, hs, validateOperation_of_lookup hop,
    layerAll_failure (Draft.over_ofOperation (lookup_wellFormed hop))]

theorem validateOperation_eq_ok {values : Table StoredValue}
    (hv : c.defaults.find? key = some values) : validateOperation key values = .ok () ↔
      ∃ op, lookup key = .ok op ∧ (c.applyDefaults (.ofOperation op)).failure = none := by
  cases hop : lookup key with
  | error e =>
    have he : validateOperation key values = .error e := by
      rw [validateOperation, hop]
      rfl
    simp [he]
  | ok op =>
    simp only [Except.ok.injEq, exists_eq_left', applyDefaults_failure hop hv,
      Option.map_eq_none_iff, Steps.cause?_eq_none]
    exact ⟨fun h => ⟨(), h⟩, fun ⟨_, h⟩ => h⟩

theorem validate_of_level (hl : isLevel c.logging.level = true) : c.validate =
    (c.defaults.entries.forM fun (key, values) => validateOperation key values).mapError
      .probe := by
  rw [validate, if_pos hl]

private theorem keys_given {values : List (String × StoredValue)} {given : List (String × Value)}
    (hg : List.Forall₂ (Gives op) values given) : given.map Prod.fst = values.map Prod.fst := by
  induction hg with
  | nil => rfl
  | cons hv _ ih => simp [hv.1, ih]

private theorem lookup_given {values : List (String × StoredValue)}
    {given : List (String × Value)} (hg : List.Forall₂ (Gives op) values given) (key : String) :
    match values.lookup key with
    | some stored => ∃ value, given.lookup key = some value ∧ resolve op key stored = .ok value
    | none => given.lookup key = none := by
  induction hg with
  | nil => rfl
  | @cons stored given _ _ hv _ ih =>
    obtain ⟨k, stored⟩ := stored
    obtain ⟨k', value⟩ := given
    obtain ⟨hk, hr⟩ := hv
    subst hk
    by_cases h : key = k'
    · subst h
      simpa using hr
    · have hb : (key == k') = false := by simpa using h
      simpa only [List.lookup_cons, hb] using ih

theorem lookup_storedFor (c : Config) (op : Operation) (key : String) :
    (c.storedFor op).lookup key = (c.defaults.find? op.key).bind (·.find? key) := by
  unfold storedFor
  cases c.defaults.find? op.key <;> rfl

theorem nodup_storedFor (c : Config) (op : Operation) :
    ((c.storedFor op).map Prod.fst).Nodup := by
  unfold storedFor
  cases c.defaults.find? op.key with
  | none => simp
  | some values => exact values.nodup

theorem nodup_given {given : List (String × Value)}
    (hg : List.Forall₂ (Gives op) (c.storedFor op) given) : (given.map Prod.fst).Nodup := by
  rw [keys_given hg]
  exact nodup_storedFor c op

/-- After a layering that nothing stopped, every setting holds what it should. -/
theorem applyDefaults_settles (hop : lookup key = .ok op)
    (hf : (c.applyDefaults (.ofOperation op)).failure = none) {setting : String}
    {d : Descriptor} (hd : op.settings.find? setting = some d) : ∃ value,
      (c.applyDefaults (.ofOperation op)).draft.value? setting = some value ∧
        c.Settles op setting d value := by
  have hover := Draft.over_ofOperation (lookup_wellFormed hop)
  rw [applyDefaults_ofOperation hop] at hf ⊢
  obtain ⟨given, hg, hdraft⟩ := (layerAll_done hover (c.storedFor op)).1 ⟨hf, rfl⟩
  rw [hdraft, Draft.value?_writeAll, Draft.value?_ofOperation, hd,
    Table.lookup_reverse (nodup_given hg)]
  have hl := lookup_given hg setting
  rw [lookup_storedFor] at hl
  unfold Settles
  cases hs : (c.defaults.find? op.key).bind (·.find? setting) with
  | none =>
    rw [hs] at hl
    exact ⟨d.default, by simp [show given.lookup setting = none from hl], rfl⟩
  | some stored =>
    rw [hs] at hl
    obtain ⟨value, hv, hr⟩ := hl
    exact ⟨value, by simp [hv], hr⟩

private theorem validate_eq_ok (hl : isLevel c.logging.level = true) : c.validate = .ok () ↔
    ∀ e ∈ c.defaults.entries, ∃ op, lookup e.1 = .ok op ∧
      (c.applyDefaults (.ofOperation op)).failure = none := by
  rw [validate_of_level hl, Steps.mapError_eq_ok, Steps.forM_eq_ok]
  apply forall₂_congr
  intro e he
  exact validateOperation_eq_ok (Table.find?_eq_some.2 he)

private theorem validate_eq_error {err : ConfigError} (hl : isLevel c.logging.level = true)
    (hknown : ∀ e ∈ c.defaults.entries, ∃ op, lookup e.1 = .ok op)
    (h : c.validate = .error err) : ∃ before e after op,
      c.defaults.entries = before ++ e :: after ∧
      (∀ b ∈ before, ∃ op, lookup b.1 = .ok op ∧
        (c.applyDefaults (.ofOperation op)).failure = none) ∧
      lookup e.1 = .ok op ∧ (c.applyDefaults (.ofOperation op)).failure = some err := by
  rw [validate_of_level hl, Steps.mapError_eq_error] at h
  obtain ⟨cause, hrun, rfl⟩ := h
  obtain ⟨before, e, after, hsplit, hbefore, he⟩ := Steps.forM_eq_error.1 hrun
  have hfind : ∀ b ∈ before ++ e :: after, c.defaults.find? b.1 = some b.2 := by
    intro b hb
    exact Table.find?_eq_some.2 (hsplit ▸ hb)
  obtain ⟨op, hop⟩ := hknown e (hsplit ▸ by simp)
  refine ⟨before, e, after, op, hsplit, ?_, hop, ?_⟩
  · intro b hb
    exact (validateOperation_eq_ok (hfind b (by simp [hb]))).1 (hbefore b hb)
  · rw [applyDefaults_failure hop (hfind e (by simp))]
    have hc : validateOperation e.1 e.2 = .error cause := he
    rw [hc]
    rfl

/-- A file gives only configurations that pass the check, so their level is one too. -/
theorem validate_of_ofFile {path : String} {content : Except FileError String}
    (h : ofFile path content = .ok c) : c.validate = .ok () := by
  unfold ofFile at h
  obtain ⟨text, _, h⟩ := Steps.bind_eq_ok.1 h
  split at h
  · cases h
  · obtain ⟨c', _, h⟩ := Steps.bind_eq_ok.1 h
    obtain ⟨_, hv, h⟩ := Steps.bind_eq_ok.1 h
    cases h
    exact hv

theorem isLevel_of_validate (h : c.validate = .ok ()) : isLevel c.logging.level = true := by
  by_contra hl
  rw [validate, if_neg hl] at h
  cases h

/-- Every operation of a valid configuration, stored values or not, can be filled. -/
theorem applyDefaults_of_validate (hv : c.validate = .ok ()) (hop : lookup key = .ok op) :
    (c.applyDefaults (.ofOperation op)).failure = none := by
  cases hs : c.defaults.find? key with
  | none =>
    rw [applyDefaults_ofOperation hop, storedFor, lookup_key hop, hs]
    rfl
  | some values =>
    obtain ⟨op', hop', hf⟩ :=
      (validate_eq_ok (isLevel_of_validate hv)).1 hv (key, values) (Table.find?_eq_some.1 hs)
    have he : op' = op := Except.ok.inj (hop'.symm.trans hop)
    exact he ▸ hf

/-- Checking a configuration and laying its values over fresh drafts agree, down to the error;
and what a file gives can be laid over any operation of the catalog. -/
theorem validate_agrees_with_applyDefaults (c : Config) :
    (isLevel c.logging.level = true →
      (c.validate = .ok () ↔ ∀ e ∈ c.defaults.entries, ∃ op, lookup e.1 = .ok op ∧
        (c.applyDefaults (.ofOperation op)).failure = none) ∧
      ∀ err, (∀ e ∈ c.defaults.entries, ∃ op, lookup e.1 = .ok op) → c.validate = .error err →
        ∃ before e after op, c.defaults.entries = before ++ e :: after ∧
          (∀ b ∈ before, ∃ op, lookup b.1 = .ok op ∧
            (c.applyDefaults (.ofOperation op)).failure = none) ∧
          lookup e.1 = .ok op ∧ (c.applyDefaults (.ofOperation op)).failure = some err) ∧
    ∀ path content key op, ofFile path content = .ok c → lookup key = .ok op →
      (c.applyDefaults (.ofOperation op)).failure = none ∧
      ∀ setting d, op.settings.find? setting = some d → ∃ value,
        (c.applyDefaults (.ofOperation op)).draft.value? setting = some value ∧
          c.Settles op setting d value := by
  constructor
  · intro hl
    exact ⟨validate_eq_ok hl, fun _ hknown => validate_eq_error hl hknown⟩
  · intro path content key op hfile hop
    have hf := applyDefaults_of_validate (validate_of_ofFile hfile) hop
    exact ⟨hf, fun _ _ hd => applyDefaults_settles hop hf hd⟩

/-- A configuration that stores a flag where a choice is asked for. -/
def flawed : Config where
  logging := .standard
  output := .standard
  defaults := .ofList [
    ("bore", .ofList [("depth", .integer 3)]),
    ("web", .ofList [("axis", .boolean true)])]

def thorough : Config where
  logging := .standard
  output := .standard
  defaults := .ofList [("web", .ofList [("quick", .boolean false)])]

theorem validate_agrees_with_applyDefaults_flawed :
    (∃ before e after op, flawed.defaults.entries = before ++ e :: after ∧
      (∀ b ∈ before, ∃ op, lookup b.1 = .ok op ∧
        (flawed.applyDefaults (.ofOperation op)).failure = none) ∧
      lookup e.1 = .ok op ∧ (flawed.applyDefaults (.ofOperation op)).failure =
        some (.probe (.kindMismatch "axis" .choice .boolean))) ∧
    (thorough.applyDefaults (.ofOperation Catalog.web)).failure = none := by
  have hlevel : isLevel flawed.logging.level = true := by decide +kernel
  have hcheck : flawed.validate = .error (.probe (.kindMismatch "axis" .choice .boolean)) := by
    decide +kernel
  have hfile : ofFile "millprobe.json"
      (.ok "\x7b\"defaults\": \x7b\"web\": \x7b\"quick\": false\x7d\x7d\x7d") = .ok thorough := by
    decide +kernel
  have hknown : ∀ e ∈ flawed.defaults.entries, ∃ op, lookup e.1 = .ok op := by
    intro e he
    have hkeys : ∀ e ∈ flawed.defaults.entries, e.1 = "bore" ∨ e.1 = "web" := by decide +kernel
    rcases hkeys e he with h | h
    · exact ⟨Catalog.bore, by rw [h]; rfl⟩
    · exact ⟨Catalog.web, by rw [h]; rfl⟩
  exact ⟨((validate_agrees_with_applyDefaults flawed).1 hlevel).2 _ hknown hcheck,
    ((validate_agrees_with_applyDefaults thorough).2 _ _ "web" _ hfile rfl).1⟩

end ProbeCycle.Config
