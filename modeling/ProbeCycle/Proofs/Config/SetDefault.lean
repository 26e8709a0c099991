import Mathlib.Algebra.Group.Int.Defs
import Mathlib.Algebra.Group.Nat.Defs
import ProbeCycle.Proofs.Config.File

namespace ProbeCycle

open Setting (Descriptor Kind Value)

/-- A place has to fit into 63 bits. -/
def Setting.Value.Storable : Value → Prop
  | .choice index => index.toNat < 2 ^ 63
  | _ => True

instance (value : Value) : Decidable value.Storable :=
  match value with
  | .choice index => inferInstanceAs (Decidable (index.toNat < 2 ^ 63))
  | .boolean _ => inferInstanceAs (Decidable True)
  | .number _ => inferInstanceAs (Decidable True)

namespace StoredValue

private theorem toInt_toInt64 (index : UInt64) : index.toInt64.toInt =
    if index.toNat < 2 ^ 63 then (index.toNat : Int) else index.toNat - 2 ^ 64 := by
  have h : index.toInt64.toInt = index.toBitVec.toInt := rfl
  rw [h, BitVec.toInt_eq_toNat_cond]
  have ht : index.toBitVec.toNat = index.toNat := rfl
  rw [ht]
  split <;> split <;> omega

/-- A value that fits is read back as it is. -/
theorem toValue_ofValue {value : Value} (h : value.Storable) :
    (ofValue value).toValue value.kind = value := by
  cases value with
  | boolean flag => rfl
  | number x => rfl
  | choice index =>
    have hn : index.toInt64.toInt = index.toNat := (toInt_toInt64 index).trans (if_pos h)
    simp [ofValue, toValue, Value.kind, hn]

/-- A place that does not fit is read back as a negative number. -/
theorem kind_toValue_ofValue {value : Value} (h : ¬ value.Storable) :
    value.kind = .choice ∧ ((ofValue value).toValue .choice).kind = .number := by
  cases value with
  | boolean flag => exact absurd trivial h
  | number x => exact absurd trivial h
  | choice index =>
    have hn : index.toInt64.toInt = index.toNat - 2 ^ 64 := (toInt_toInt64 index).trans (if_neg h)
    have hneg : ¬ (0 ≤ index.toInt64.toInt) := by
      have hlt := index.toNat_lt
      omega
    simp [ofValue, toValue, Value.kind, hneg]

end StoredValue

namespace Table

/-- Among entries that pass a check, a new one alone decides whether all of them do. -/
theorem forM_insert {α ε : Type} {t : Table α} {f : String × α → Except ε Unit} {key : String}
    {value : α} (h : ∀ e ∈ t.entries, f e = .ok ()) :
    (t.insert key value).entries.forM f = f (key, value) := by
  have hmem : (key, value) ∈ (t.insert key value).entries := by
    rw [← find?_eq_some, find?_insert, if_pos rfl]
  have hold : ∀ e ∈ (t.insert key value).entries, f e = .ok () ∨ f e = f (key, value) :=
    forall_insert (fun e he => Or.inl (h e he)) (Or.inr rfl)
  cases hrun : (t.insert key value).entries.forM f with
  | ok _ => exact (Steps.forM_eq_ok.1 hrun _ hmem).symm
  | error cause =>
    obtain ⟨before, e, after, hsplit, _, he⟩ := Steps.forM_eq_error.1 hrun
    rcases hold e (hsplit ▸ by simp) with hok | hnew
    · rw [hok] at he
      cases he
    · exact he.symm.trans hnew

end Table

namespace Config

variable {c c' : Config} {op : Operation} {operation setting : String} {value : Value}

/-- The values of an operation once one more is stored among them. -/
def storedValues (c : Config) (operation setting : String) (value : Value) : Table StoredValue :=
  ((c.defaults.find? operation).getD ∅).insert setting (.ofValue value)

/-- The configuration with a value for a setting, whether the setting takes it or not. -/
def storeValue (c : Config) (operation setting : String) (value : Value) : Config :=
  { c with defaults := c.defaults.insert operation (c.storedValues operation setting value) }

/-- What is stored for a setting of an operation. -/
def stored? (c : Config) (operation setting : String) : Option StoredValue :=
  (c.defaults.find? operation).bind (·.find? setting)

theorem setDefault_eq_ok : c.setDefault operation setting value = .ok c' ↔
    (∃ op, lookup operation = .ok op ∧ op.Takes setting value) ∧
      c' = c.storeValue operation setting value := by
  unfold setDefault Operation.Takes
  rw [Steps.bind_eq_ok]
  simp only [Steps.mapError_eq_ok]
  constructor
  · intro h
    obtain ⟨op, hop, h⟩ := h
    split at h
    · cases h
    · rename_i d hd
      obtain ⟨_, haccept, h⟩ := Steps.bind_eq_ok.1 h
      obtain ⟨ha, rfl⟩ := Descriptor.accept_eq_ok.1 (Steps.mapError_eq_ok.1 haccept)
      cases h
      exact ⟨⟨op, hop, d, hd, ha⟩, rfl⟩
  · intro h
    obtain ⟨⟨op, hop, d, hd, ha⟩, rfl⟩ := h
    refine ⟨op, hop, ?_⟩
    rw [hd]
    exact Steps.bind_eq_ok.2
      ⟨value, Steps.mapError_eq_ok.2 (Descriptor.accept_eq_ok.2 ⟨ha, rfl⟩), rfl⟩

theorem stored?_storeValue (c : Config) (operation setting : String) (value : Value)
    (o k : String) : (c.storeValue operation setting value).stored? o k =
      if o = operation ∧ k = setting then some (.ofValue value) else c.stored? o k := by
  unfold stored? storeValue storedValues
  by_cases ho : o = operation
  · subst ho
    have hempty : (∅ : Table StoredValue).find? k = none := rfl
    cases c.defaults.find? o <;> by_cases hk : k = setting <;> simp [hk, hempty]
  · simp [ho]

theorem resolve_ofValue (ht : op.Takes setting value) : resolve op setting (.ofValue value) =
    if value.Storable then .ok value else .error (.kindMismatch setting .choice .number) := by
  obtain ⟨d, hd, ha⟩ := ht
  rw [resolve, hd]
  dsimp only
  split
  · rename_i hs
    rw [← ha.1, StoredValue.toValue_ofValue hs]
    exact Descriptor.accept_eq_ok.2 ⟨ha, rfl⟩
  · rename_i hs
    obtain ⟨hchoice, hnumber⟩ := StoredValue.kind_toValue_ofValue hs
    have hkind : d.kind = .choice := ha.1.symm.trans hchoice
    simp [Descriptor.accept, hkind, hnumber]

theorem validateOperation_of_validate (hv : c.validate = .ok ()) :
    ∀ e ∈ c.defaults.entries, validateOperation e.1 e.2 = .ok () := by
  rw [validate_of_level (isLevel_of_validate hv), Steps.mapError_eq_ok, Steps.forM_eq_ok] at hv
  exact hv

/-- In a valid configuration, only the value that is stored last can be what is wrong. -/
theorem validateOperation_storedValues (hv : c.validate = .ok ())
    (hop : lookup operation = .ok op) :
    validateOperation operation (c.storedValues operation setting value) =
      discard (resolve op setting (.ofValue value)) := by
  have hold : ∀ v ∈ ((c.defaults.find? operation).getD ∅).entries,
      discard (resolve op v.1 v.2) = .ok () := by
    cases hf : c.defaults.find? operation with
    | none => exact fun _ hm => absurd hm List.not_mem_nil
    | some values =>
      have hvalues := validateOperation_of_validate hv _ (Table.find?_eq_some.1 hf)
      rw [validateOperation_of_lookup hop, Steps.forM_eq_ok] at hvalues
      exact hvalues
  rw [validateOperation_of_lookup hop]
  exact Table.forM_insert hold

theorem validate_storeValue (hv : c.validate = .ok ()) (hop : lookup operation = .ok op)
    (setting : String) (value : Value) :
    (c.storeValue operation setting value).validate =
      (discard (resolve op setting (.ofValue value))).mapError .probe := by
  have hl := isLevel_of_validate hv
  rw [validate_of_level (c := c.storeValue operation setting value) hl,
    ← validateOperation_storedValues hv hop]
  exact congrArg (Except.mapError ConfigError.probe)
    (Table.forM_insert (validateOperation_of_validate hv))

theorem applyDefaults_storeValue (hv : c.validate = .ok ()) (hop : lookup operation = .ok op)
    (setting : String) (value : Value) :
    ((c.storeValue operation setting value).applyDefaults (.ofOperation op)).failure =
      (Steps.cause? (discard (resolve op setting (.ofValue value)))).map .probe := by
  have hf : (c.storeValue operation setting value).defaults.find? operation =
      some (c.storedValues operation setting value) := by
    rw [storeValue, Table.find?_insert, if_pos rfl]
  rw [applyDefaults_failure hop hf, validateOperation_storedValues hv hop]

/-- What a setting holds once the stored values are in: what is stored for it, or its default. -/
def held? (c : Config) (op : Operation) (key : String) : Option Value :=
  (op.settings.find? key).bind fun d =>
    match c.stored? op.key key with
    | some stored => (resolve op key stored).toOption
    | none => some d.default

theorem value?_applyDefaults (hop : lookup operation = .ok op)
    (hf : (c.applyDefaults (.ofOperation op)).failure = none) (key : String) :
    (c.applyDefaults (.ofOperation op)).draft.value? key = c.held? op key := by
  unfold held?
  cases hd : op.settings.find? key with
  | none =>
    have hover := Draft.over_ofOperation (lookup_wellFormed hop)
    rw [applyDefaults_ofOperation hop] at hf ⊢
    obtain ⟨given, _, hdraft⟩ := (layerAll_done hover (c.storedFor op)).1 ⟨hf, rfl⟩
    rw [hdraft, Draft.value?_writeAll, Draft.value?_ofOperation, hd]
    rfl
  | some d =>
    obtain ⟨value, hvalue, hs⟩ := applyDefaults_settles hop hf hd
    rw [hvalue, Option.bind_some]
    change match c.stored? op.key key with
      | some stored => resolve op key stored = .ok value
      | none => value = d.default at hs
    cases hstored : c.stored? op.key key with
    | none =>
      rw [hstored] at hs
      exact congrArg some hs
    | some stored =>
      rw [hstored] at hs
      exact (congrArg Except.toOption hs).symm

/-- A value that fits is held from then on, and nothing else changes. -/
theorem held?_storeValue (hop : lookup operation = .ok op) (ht : op.Takes setting value)
    (hs : value.Storable) (key : String) : (c.storeValue operation setting value).held? op key =
      if key = setting then some value else c.held? op key := by
  unfold held?
  rw [stored?_storeValue, lookup_key hop]
  by_cases hk : key = setting
  · subst hk
    have ⟨d, hd, _⟩ := ht
    simp [hd, resolve_ofValue ht, hs, Except.toOption]
  · simp [hk]

/-- A value that a setting takes is the one that it holds from then on, all other settings hold
what they held, and the configuration stays valid; only a place beyond 63 bits is taken and then
found to be of a wrong kind. -/
theorem setDefault_reads_back {c c' : Config} {operation setting : String} {value : Value}
    (hv : c.validate = .ok ()) (h : c.setDefault operation setting value = .ok c') :
    ∃ op, lookup operation = .ok op ∧
      (value.Storable → c'.validate = .ok () ∧
        (c'.applyDefaults (.ofOperation op)).failure = none ∧
        ∀ key, (c'.applyDefaults (.ofOperation op)).draft.value? key =
          if key = setting then some value
          else (c.applyDefaults (.ofOperation op)).draft.value? key) ∧
      (¬ value.Storable →
        c'.validate = .error (.probe (.kindMismatch setting .choice .number)) ∧
        (c'.applyDefaults (.ofOperation op)).failure =
          some (.probe (.kindMismatch setting .choice .number))) := by
  obtain ⟨⟨op, hop, ht⟩, rfl⟩ := setDefault_eq_ok.1 h
  have hcheck := validate_storeValue hv hop setting value
  have hlayer := applyDefaults_storeValue hv hop setting value
  rw [resolve_ofValue ht] at hcheck hlayer
  refine ⟨op, hop, ?_, ?_⟩
  · intro hs
    rw [if_pos hs] at hcheck hlayer
    refine ⟨hcheck, hlayer, ?_⟩
    intro key
    rw [value?_applyDefaults hop hlayer, held?_storeValue hop ht hs,
      value?_applyDefaults hop (applyDefaults_of_validate hv hop)]
  · intro hs
    rw [if_neg hs] at hcheck hlayer
    exact ⟨hcheck, hlayer⟩

/-- The other axis for an operation that has values stored already, one for the axis among them. -/
theorem setDefault_reads_back_axis :
    diverse.validate = .ok () ∧
    diverse.setDefault "web" "axis" (.choice 0) =
      .ok (diverse.storeValue "web" "axis" (.choice 0)) ∧
    (diverse.storeValue "web" "axis" (.choice 0)).validate = .ok () ∧
    ∀ key, ((diverse.storeValue "web" "axis" (.choice 0)).applyDefaults
        (.ofOperation Catalog.web)).draft.value? key =
      if key = "axis" then some (.choice 0)
      else (diverse.applyDefaults (.ofOperation Catalog.web)).draft.value? key := by
  have hv : diverse.validate = .ok () := by decide +kernel
  have hset : diverse.setDefault "web" "axis" (.choice 0) =
      .ok (diverse.storeValue "web" "axis" (.choice 0)) := by decide +kernel
  obtain ⟨op, hop, hfits, _⟩ := setDefault_reads_back hv hset
  obtain rfl : Catalog.web = op := Except.ok.inj ((rfl : lookup "web" = .ok _).symm.trans hop)
  obtain ⟨hvalid, _, hvalues⟩ := hfits (by decide)
  exact ⟨hv, hset, hvalid, hvalues⟩

/-- The first place beyond 63 bits is stored as the least integer. -/
theorem setDefault_wraps_axis :
    standard.validate = .ok () ∧
    ∃ c', standard.setDefault "web" "axis" (.choice 9223372036854775808) = .ok c' ∧
      c'.stored? "web" "axis" = some (.integer (-9223372036854775808)) ∧
      c'.validate = .error (.probe (.kindMismatch "axis" .choice .number)) :=
  ⟨by decide +kernel, standard.storeValue "web" "axis" (.choice 9223372036854775808),
    by decide +kernel, by decide +kernel, by decide +kernel⟩

end Config

end ProbeCycle
