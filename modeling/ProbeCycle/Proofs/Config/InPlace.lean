import ProbeCycle.Proofs.Config.SetDefault

namespace ProbeCycle

open Setting (Value)

namespace Table

variable {α : Type}

/-- A value that is replaced at once has never been there. -/
theorem insert_insert (t : Table α) (key : String) (first second : α) :
    (t.insert key first).insert key second = t.insert key second := by
  have hstore : ∀ entries : List (String × α),
      store key second (store key first entries) = store key second entries := by
    intro entries
    induction entries with
    | nil => simp [store]
    | cons entry rest ih =>
      obtain ⟨k, x⟩ := entry
      by_cases hk : k = key <;> simp [store, hk, ih]
  exact Table.ext (hstore t.entries)

end Table

abbrev Config.Edit (α : Type) := EStateM ConfigError Config α

namespace Config

variable {α β : Type} {c later : Config} {operation setting : String} {value : Value}

namespace Edit

/-- Look something up or check it; the configuration stays as it is. -/
def check (answer : Except ProbeError α) : Edit α := fun c =>
  match answer with
  | .ok a => .ok a c
  | .error e => .error (.probe e) c

/-- An operation for which nothing is stored gets an empty table. -/
def openTable (operation : String) : Edit Unit :=
  modify fun c =>
    match c.defaults.find? operation with
    | some _ => c
    | none => { c with defaults := c.defaults.insert operation ∅ }

/-- Store a value in the table of an operation, which has to be open. -/
def put (operation setting : String) (stored : StoredValue) : Edit Unit :=
  modify fun c =>
    match c.defaults.find? operation with
    | some values =>
      { c with defaults := c.defaults.insert operation (values.insert setting stored) }
    | none => c

def setDefault (operation setting : String) (value : Value) : Edit Unit := do
  let op ← check (lookup operation)
  let descriptor ← check <|
    match op.settings.find? setting with
    | some descriptor => .ok descriptor
    | none => .error (.unknownSetting operation setting)
  let value ← check (descriptor.accept setting value)
  openTable operation
  put operation setting (.ofValue value)

/-- How a call ends in place: if it fails, with the configuration as it was. -/
def ending (c : Config) : Except ConfigError Config → EStateM.Result ConfigError Config Unit
  | .ok later => .ok () later
  | .error e => .error e c

theorem run_check_bind (answer : Except ProbeError α) (rest : α → Edit β) :
    (check answer >>= rest).run c = match answer with
      | .ok a => (rest a).run c
      | .error e => .error (.probe e) c := by
  change EStateM.bind (check answer) rest c = _
  unfold EStateM.bind check
  cases answer <;> rfl

theorem run_put (c : Config) (operation setting : String) (value : Value) :
    (do openTable operation; put operation setting (.ofValue value) : Edit Unit).run c =
      .ok () (c.storeValue operation setting value) := by
  change EStateM.Result.ok () _ = _
  cases hf : c.defaults.find? operation with
  | some values => simp [hf, storeValue, storedValues]
  | none => simp [hf, storeValue, storedValues, Table.insert_insert]

/-- In place or not, a call comes to the same. -/
theorem run_setDefault (c : Config) (operation setting : String) (value : Value) :
    (setDefault operation setting value).run c =
      ending c (c.setDefault operation setting value) := by
  rw [setDefault, run_check_bind, Config.setDefault]
  cases hop : lookup operation with
  | error e => rfl
  | ok op =>
    dsimp only
    rw [run_check_bind]
    cases hd : op.settings.find? setting with
    | none => simp [Except.mapError, bind, Except.bind, hd, ending]
    | some d =>
      dsimp only
      rw [run_check_bind]
      cases ha : d.accept setting value with
      | error e => simp [Except.mapError, bind, Except.bind, hd, ha, ending]
      | ok value =>
        dsimp only
        rw [run_put]
        simp [Except.mapError, bind, Except.bind, hd, ha, ending]
        rfl

end Edit

/-- A value to be stored for a setting of an operation. -/
structure Write where
  operation : String
  setting : String
  value : Value

namespace Write

variable {w : Write}

def call (w : Write) : Edit Unit := Edit.setDefault w.operation w.setting w.value

/-- The operation is a standard one with a setting that accepts the value. -/
def Fits (w : Write) : Prop := ∃ op, lookup w.operation = .ok op ∧ op.Takes w.setting w.value

instance (w : Write) : Decidable w.Fits :=
  match h : lookup w.operation with
  | .error _ => isFalse (by simp [Fits, h])
  | .ok op =>
    match hd : op.settings.find? w.setting with
    | none => isFalse (by simp [Fits, h, Operation.Takes, hd])
    | some d => decidable_of_iff (d.Accepts w.value) (by simp [Fits, h, Operation.Takes, hd])

/-- What is wrong with a value that does not fit: the operation is unknown or has no such setting,
or the value is of another kind or not finite. -/
def Fails (w : Write) (e : ConfigError) : Prop :=
  match lookup w.operation with
  | .error _ => e = .probe (.unknownOperation w.operation)
  | .ok op => ∃ cause, op.Refuses w.setting w.value cause ∧ e = .probe cause

end Write

theorem setDefault_eq_error {w : Write} {e : ConfigError} :
    c.setDefault w.operation w.setting w.value = .error e ↔ w.Fails e := by
  unfold setDefault Write.Fails Operation.Refuses
  cases hop : lookup w.operation with
  | error cause =>
    obtain ⟨_, rfl⟩ := lookup_eq_error.1 hop
    simp [Except.mapError, bind, Except.bind, eq_comm]
  | ok op =>
    simp only [Except.mapError, bind, Except.bind]
    cases hd : op.settings.find? w.setting with
    | none => simp [lookup_key hop, eq_comm]
    | some d =>
      simp only [← Setting.Descriptor.accept_eq_error]
      cases d.accept w.setting w.value <;> simp [pure, Except.pure, eq_comm]

/-- The configuration after a call, whether this went through or not. -/
def after (c : Config) (w : Write) : Config :=
  match w.call.run c with
  | .ok _ later => later
  | .error _ later => later

def afterAll (c : Config) (writes : List Write) : Config := writes.foldl after c

theorem after_eq (c : Config) (w : Write) : c.after w =
    if w.Fits then c.storeValue w.operation w.setting w.value else c := by
  rw [after, Write.call, Edit.run_setDefault]
  by_cases hfits : w.Fits
  · rw [if_pos hfits, setDefault_eq_ok.2 ⟨hfits, rfl⟩]
    rfl
  · rw [if_neg hfits]
    cases hrun : c.setDefault w.operation w.setting w.value with
    | ok later => exact absurd (setDefault_eq_ok.1 hrun).1 hfits
    | error e => rfl

/-- The settings for which something is stored, in order. -/
def storedKeys (c : Config) (operation : String) : List String :=
  ((c.defaults.find? operation).map Table.keys).getD []

/-- Nothing but one stored value differs, and what is new stands at the end. -/
structure StoresOnly (w : Write) (c later : Config) : Prop where
  logging : later.logging = c.logging
  output : later.output = c.output
  stored : later.stored? w.operation w.setting = some (.ofValue w.value)
  others : ∀ operation setting, (operation, setting) ≠ (w.operation, w.setting) →
    later.stored? operation setting = c.stored? operation setting
  operations : later.defaults.keys =
    if w.operation ∈ c.defaults.keys then c.defaults.keys else c.defaults.keys ++ [w.operation]
  settings : ∀ operation, later.storedKeys operation =
    if operation = w.operation ∧ w.setting ∉ c.storedKeys operation
    then c.storedKeys operation ++ [w.setting] else c.storedKeys operation

theorem storedKeys_storeValue (c : Config) (w : Write) (operation : String) :
    (c.storeValue w.operation w.setting w.value).storedKeys operation =
      if operation = w.operation ∧ w.setting ∉ c.storedKeys operation
      then c.storedKeys operation ++ [w.setting] else c.storedKeys operation := by
  unfold storedKeys storeValue storedValues
  by_cases ho : operation = w.operation
  · subst ho
    have hempty : (∅ : Table StoredValue).keys = [] := rfl
    cases c.defaults.find? w.operation with
    | none => simp [Table.keys_insert, hempty]
    | some values => by_cases hm : w.setting ∈ values.keys <;> simp [Table.keys_insert, hm]
  · simp [ho]

theorem storesOnly_storeValue (c : Config) (w : Write) :
    StoresOnly w c (c.storeValue w.operation w.setting w.value) where
  logging := rfl
  output := rfl
  stored := by simp [stored?_storeValue]
  others := by
    intro operation setting hne
    rw [stored?_storeValue, if_neg]
    rintro ⟨rfl, rfl⟩
    exact hne rfl
  operations := Table.keys_insert _ _ _
  settings := storedKeys_storeValue c w

/-- A call that fails leaves the configuration as it was. -/
theorem run_call_eq_error {w : Write} {e : ConfigError} :
    w.call.run c = .error e later ↔ w.Fails e ∧ later = c := by
  rw [Write.call, Edit.run_setDefault, ← setDefault_eq_error (c := c)]
  cases c.setDefault w.operation w.setting w.value <;> simp [Edit.ending, eq_comm]

theorem run_call_eq_ok {w : Write} :
    w.call.run c = .ok () later ↔
      w.Fits ∧ later = c.storeValue w.operation w.setting w.value := by
  have hok : w.call.run c = .ok () later ↔
      c.setDefault w.operation w.setting w.value = .ok later := by
    rw [Write.call, Edit.run_setDefault]
    cases c.setDefault w.operation w.setting w.value <;> simp [Edit.ending]
  exact hok.trans setDefault_eq_ok

/-- What the last call that went through has stored for a setting, if one has. -/
def lastStored? (writes : List Write) (operation setting : String) : Option StoredValue :=
  (writes.reverse.find? fun w =>
    w.Fits ∧ operation = w.operation ∧ setting = w.setting).map fun w => .ofValue w.value

/-- All that calls keep: the sections beside the stored values, and the places of all keys. -/
structure Extends (c later : Config) : Prop where
  logging : later.logging = c.logging
  output : later.output = c.output
  operations : c.defaults.keys <+: later.defaults.keys
  settings : ∀ operation, c.storedKeys operation <+: later.storedKeys operation

theorem Extends.refl (c : Config) : c.Extends c where
  logging := rfl
  output := rfl
  operations := List.prefix_rfl
  settings := fun _ => List.prefix_rfl

theorem Extends.of_storesOnly {w : Write} (h : StoresOnly w c later) : c.Extends later where
  logging := h.logging
  output := h.output
  operations := by
    rw [h.operations]
    split
    · exact List.prefix_rfl
    · exact List.prefix_append _ _
  settings := by
    intro operation
    rw [h.settings]
    split
    · exact List.prefix_append _ _
    · exact List.prefix_rfl

theorem extends_after (c : Config) (w : Write) : c.Extends (c.after w) := by
  rw [after_eq]
  split
  · exact .of_storesOnly (storesOnly_storeValue c w)
  · exact Extends.refl c

theorem Extends.trans {last : Config} (h : c.Extends later) (h' : later.Extends last) :
    c.Extends last where
  logging := h'.logging.trans h.logging
  output := h'.output.trans h.output
  operations := h.operations.trans h'.operations
  settings := fun operation => (h.settings operation).trans (h'.settings operation)

theorem extends_afterAll (c : Config) (writes : List Write) : c.Extends (c.afterAll writes) := by
  induction writes generalizing c with
  | nil => exact Extends.refl c
  | cons w rest ih => exact (extends_after c w).trans (ih (c.after w))

theorem stored?_after (c : Config) (w : Write) (operation setting : String) :
    (c.after w).stored? operation setting =
      if w.Fits ∧ operation = w.operation ∧ setting = w.setting then some (.ofValue w.value)
      else c.stored? operation setting := by
  rw [after_eq]
  by_cases hfits : w.Fits
  · simp [hfits, stored?_storeValue]
  · simp [hfits]

/-- After any calls, a setting has what the last one that went through stored for it. -/
theorem stored?_afterAll (c : Config) (writes : List Write) (operation setting : String) :
    (c.afterAll writes).stored? operation setting =
      (lastStored? writes operation setting).or (c.stored? operation setting) := by
  induction writes generalizing c with
  | nil => rfl
  | cons w rest ih =>
    have hrun : c.afterAll (w :: rest) = (c.after w).afterAll rest := rfl
    rw [hrun, ih, stored?_after, lastStored?, lastStored?, List.reverse_cons, List.find?_append]
    cases rest.reverse.find? fun w =>
        w.Fits ∧ operation = w.operation ∧ setting = w.setting with
    | some later => rfl
    | none =>
      by_cases hw : w.Fits ∧ operation = w.operation ∧ setting = w.setting
      · simp [hw]
      · simp [hw]

/-- In every configuration that calls lead to, the next call fails exactly for what is wrong with
its value and then leaves everything as it was, or it changes what is stored for its setting and
nothing else. Over all the calls, keys keep their places, and each setting has what the last call
that went through stored for it. -/
theorem afterAll_atomic_and_local (c : Config) (writes : List Write) :
    let reached := c.afterAll writes
    (∀ w : Write, w.call.run reached =
      Edit.ending reached (reached.setDefault w.operation w.setting w.value)) ∧
    (∀ (w : Write) e later, w.call.run reached = .error e later ↔ w.Fails e ∧ later = reached) ∧
    (∀ w : Write, (∃ later, w.call.run reached = .ok () later) ↔ w.Fits) ∧
    (∀ (w : Write) later, w.call.run reached = .ok () later → StoresOnly w reached later) ∧
    c.Extends reached ∧
    ∀ operation setting, reached.stored? operation setting =
      (lastStored? writes operation setting).or (c.stored? operation setting) := by
  intro reached
  refine ⟨fun w => Edit.run_setDefault reached w.operation w.setting w.value,
    fun w e later => run_call_eq_error, ?_, ?_, extends_afterAll c writes,
    stored?_afterAll c writes⟩
  · intro w
    simp only [run_call_eq_ok, exists_and_left, exists_eq, and_true]
  · intro w later hrun
    obtain ⟨_, rfl⟩ := run_call_eq_ok.1 hrun
    exact storesOnly_storeValue reached w

/-- Five calls, of which the first has no operation, the third another kind and the fifth a number
that is not finite. -/
def attempts : List Write :=
  [⟨"drill", "depth", .number 1⟩, ⟨"web", "quick", .boolean false⟩, ⟨"web", "quick", .number 1⟩,
    ⟨"bore", "depth", .number 3⟩, ⟨"web", "width", .number .nan⟩]

theorem afterAll_atomic_and_local_attempts :
    let reached := standard.afterAll attempts
    reached.defaults.keys = ["web", "bore"] ∧ reached.storedKeys "web" = ["quick"] ∧
    (∃ e, (Write.call ⟨"pocket", "speed", .number 1⟩).run reached = .error e reached) ∧
    reached.stored? "web" "quick" = some (.boolean false) ∧
    reached.stored? "web" "width" = none := by
  intro reached
  obtain ⟨_, hfails, _, _, _, hstored⟩ := afterAll_atomic_and_local standard attempts
  refine ⟨by decide +kernel, by decide +kernel,
    ⟨_, (hfails ⟨"pocket", "speed", .number 1⟩ _ _).2 ⟨⟨_, rfl, rfl⟩, rfl⟩⟩, ?_, ?_⟩
  · exact (hstored "web" "quick").trans (by decide +kernel)
  · exact (hstored "web" "width").trans (by decide +kernel)

end Config

end ProbeCycle
