import ProbeCycle.Proofs.Config.SetDefault
import ProbeCycle.Proofs.History

namespace ProbeCycle

open Setting (Descriptor Value)

namespace Draft

variable {draft other : Draft}

theorem operation_writeAll (draft : Draft) (values : List (String × Value)) :
    (draft.writeAll values).operation = draft.operation := by
  induction values generalizing draft with
  | nil => rfl
  | cons v rest ih => exact (ih (draft.write v.1 v.2)).trans (operation_write draft v.1 v.2)

theorem takes_of_schema (h : other.schema = draft.schema) {key : String} {value : Value} :
    other.Takes key value ↔ draft.Takes key value := by
  simp only [Takes, ← lookup_schema, h]

end Draft

namespace Config

variable {op : Operation} {draft later : Draft} {key : String} {stored : StoredValue}
  {value : Value} {v : String × StoredValue} {values : List (String × StoredValue)}
  {e : ConfigError}

/-- The stored value stands for one that the setting of the draft accepts. -/
def Enters (op : Operation) (draft : Draft) (v : String × StoredValue) : Prop :=
  ∃ value, resolve op v.1 v.2 = .ok value ∧ draft.Takes v.1 value

/-- What keeps a stored value out: the catalog, or the draft with its own settings. -/
def KeptOut (op : Operation) (draft : Draft) (v : String × StoredValue) (e : ConfigError) : Prop :=
  ∃ cause, e = .probe cause ∧ (resolve op v.1 v.2 = .error cause ∨
    ∃ value, resolve op v.1 v.2 = .ok value ∧ draft.set v.1 value = .error cause)

/-- The draft with each stored value in its setting and everything else as it was. -/
structure Laid (op : Operation) (values : List (String × StoredValue)) (draft later : Draft) :
    Prop where
  operation : later.operation = draft.operation
  schema : later.schema = draft.schema
  held : ∀ v ∈ values, ∃ value, resolve op v.1 v.2 = .ok value ∧ later.value? v.1 = some value
  others : ∀ key, key ∉ values.map Prod.fst → later.value? key = draft.value? key

theorem Laid.nil (op : Operation) (draft : Draft) : Laid op [] draft draft where
  operation := rfl
  schema := rfl
  held := fun _ hm => absurd hm List.not_mem_nil
  others := fun _ _ => rfl

theorem Laid.cons (hr : resolve op key stored = .ok value) (ht : draft.Takes key value)
    (hnew : key ∉ values.map Prod.fst) (h : Laid op values (draft.write key value) later) :
    Laid op ((key, stored) :: values) draft later where
  operation := h.operation.trans (Draft.operation_write draft key value)
  schema := h.schema.trans (Draft.schema_write draft key value)
  held := by
    refine List.forall_mem_cons.2 ⟨⟨value, hr, ?_⟩, h.held⟩
    rw [h.others key hnew]
    exact Draft.value?_write_self ht
  others := by
    intro k hk
    obtain ⟨hne, hrest⟩ := not_or.1 (List.mem_cons.not.1 hk)
    rw [h.others k hrest, Draft.value?_write]
    simp [show k ≠ key from hne]

/-- The stored values alone decide what comes out, not their order. -/
theorem Laid.unique {values' : List (String × StoredValue)} {later' : Draft}
    (h : Laid op values draft later) (h' : Laid op values' draft later')
    (hperm : values'.Perm values) : later' = later := by
  apply Draft.eq_of_schema (h'.operation.trans h.operation.symm) (h'.schema.trans h.schema.symm)
  intro key
  by_cases hk : key ∈ values.map Prod.fst
  · obtain ⟨v, hv, rfl⟩ := List.mem_map.1 hk
    obtain ⟨value, hr, hheld⟩ := h.held v hv
    obtain ⟨value', hr', hheld'⟩ := h'.held v (hperm.mem_iff.2 hv)
    obtain rfl : value = value' := Except.ok.inj (hr.symm.trans hr')
    rw [hheld, hheld']
  · rw [h.others key hk, h'.others key (fun hm => hk ((hperm.map Prod.fst).mem_iff.1 hm))]

/-- Laying the same values once more finds everything in place. -/
theorem Laid.again (h : Laid op values draft later) : Laid op values later later where
  operation := rfl
  schema := rfl
  held := h.held
  others := fun _ _ => rfl

theorem enters_of_schema (h : later.schema = draft.schema) :
    Enters op later v ↔ Enters op draft v := by
  simp only [Enters, Draft.takes_of_schema h]

theorem layerOne_eq_ok : layerOne op draft key stored = .ok (later, value) ↔
    resolve op key stored = .ok value ∧ draft.Takes key value ∧ later = draft.write key value := by
  rw [layerOne, Steps.bind_eq_ok]
  simp only [Steps.bind_eq_ok, Draft.set_eq_ok]
  constructor
  · intro h
    obtain ⟨_, hr, _, ⟨ht, rfl⟩, hpair⟩ := h
    cases hpair
    exact ⟨hr, ht, rfl⟩
  · intro h
    obtain ⟨hr, ht, rfl⟩ := h
    exact ⟨value, hr, _, ⟨ht, rfl⟩, rfl⟩

theorem keptOut_of_layerOne {cause : ProbeError} (h : layerOne op draft key stored = .error cause) :
    KeptOut op draft (key, stored) (.probe cause) := by
  refine ⟨cause, rfl, ?_⟩
  rw [layerOne, Steps.bind_eq_error] at h
  rcases h with hr | ⟨value, hr, hset⟩
  · exact Or.inl hr
  · rcases Steps.bind_eq_error.1 hset with hset | ⟨_, _, hpure⟩
    · exact Or.inr ⟨value, hr, hset⟩
    · cases hpure

theorem enters_iff_layerOne : Enters op draft (key, stored) ↔
    ∃ value, layerOne op draft key stored = .ok (draft.write key value, value) := by
  simp only [layerOne_eq_ok, Enters, and_true]

theorem not_enters_of_layerOne {cause : ProbeError}
    (h : layerOne op draft key stored = .error cause) : ¬ Enters op draft (key, stored) := by
  intro henters
  obtain ⟨_, hone⟩ := enters_iff_layerOne.1 henters
  cases h.symm.trans hone

/-- Nothing stops the values if each of them enters the draft as it is at the start. -/
theorem failure_layerAll (op : Operation) (draft : Draft) (values : List (String × StoredValue)) :
    (layerAll op draft values).failure = none ↔ ∀ v ∈ values, Enters op draft v := by
  induction values generalizing draft with
  | nil => simp [layerAll]
  | cons v rest ih =>
    obtain ⟨key, stored⟩ := v
    rw [List.forall_mem_cons, layerAll]
    cases hone : layerOne op draft key stored with
    | error cause => simp [not_enters_of_layerOne hone]
    | ok r =>
      obtain ⟨later, value⟩ := r
      obtain ⟨hr, ht, hlater⟩ := layerOne_eq_ok.1 hone
      subst hlater
      have hhead : Enters op draft (key, stored) := ⟨value, hr, ht⟩
      have hrest : ∀ v, Enters op (draft.write key value) v ↔ Enters op draft v :=
        fun v => enters_of_schema (Draft.schema_write draft key value)
      simp [ih, hrest, hhead]

theorem laid_layerAll (hnodup : (values.map Prod.fst).Nodup)
    (henters : ∀ v ∈ values, Enters op draft v) :
    Laid op values draft (layerAll op draft values).draft := by
  induction values generalizing draft with
  | nil => exact Laid.nil op draft
  | cons v rest ih =>
    obtain ⟨key, stored⟩ := v
    obtain ⟨hnew, hnodup⟩ := List.nodup_cons.1 hnodup
    obtain ⟨hhead, hrest⟩ := List.forall_mem_cons.1 henters
    obtain ⟨value, hone⟩ := enters_iff_layerOne.1 hhead
    obtain ⟨hr, ht, _⟩ := layerOne_eq_ok.1 hone
    rw [layerAll, hone]
    refine Laid.cons hr ht hnew (ih hnodup ?_)
    intro v hv
    exact (enters_of_schema (Draft.schema_write draft key value)).2 (hrest v hv)

/-- The values in front of the one that is kept out have gone in, and no others. -/
theorem layerAll_stopped (h : (layerAll op draft values).failure = some e) :
    ∃ before v after, values = before ++ v :: after ∧ (∀ b ∈ before, Enters op draft b) ∧
      (layerAll op draft values).draft = (layerAll op draft before).draft ∧
      KeptOut op (layerAll op draft values).draft v e := by
  induction values generalizing draft with
  | nil => cases h
  | cons v rest ih =>
    obtain ⟨key, stored⟩ := v
    rw [layerAll] at h ⊢
    cases hone : layerOne op draft key stored with
    | error cause =>
      rw [hone] at h
      cases h
      exact ⟨[], (key, stored), rest, rfl, by simp, rfl, keptOut_of_layerOne hone⟩
    | ok r =>
      rw [hone] at h
      obtain ⟨later, value⟩ := r
      obtain ⟨hr, ht, hlater⟩ := layerOne_eq_ok.1 hone
      subst hlater
      obtain ⟨before, w, after, rfl, hbefore, hdraft, hout⟩ := ih h
      refine ⟨(key, stored) :: before, w, after, rfl, ?_, ?_, hout⟩
      · refine List.forall_mem_cons.2 ⟨⟨value, hr, ht⟩, ?_⟩
        intro b hb
        exact (enters_of_schema (Draft.schema_write draft key value)).1 (hbefore b hb)
      · rw [layerAll, hone]
        exact hdraft

variable {c c' : Config} {table table' : Table StoredValue}

theorem applyDefaults_known (ht : c.defaults.find? draft.operation = some table)
    (hop : lookup draft.operation = .ok op) :
    c.applyDefaults draft = layerAll op draft table.entries := by
  rw [applyDefaults, ht]
  dsimp only
  rw [hop]

theorem applyDefaults_unknown (ht : c.defaults.find? draft.operation = some table)
    {cause : ProbeError} (hop : lookup draft.operation = .error cause) :
    c.applyDefaults draft = ⟨draft, [], some (.probe cause)⟩ := by
  rw [applyDefaults, ht]
  dsimp only
  rw [hop]

theorem applyDefaults_none (ht : c.defaults.find? draft.operation = none) :
    c.applyDefaults draft = ⟨draft, [], none⟩ := by
  rw [applyDefaults, ht]

theorem schema_applyDefaults (c : Config) (draft : Draft) :
    (c.applyDefaults draft).draft.operation = draft.operation ∧
      (c.applyDefaults draft).draft.schema = draft.schema := by
  obtain ⟨written, hlater, _⟩ := Draft.writes_applyDefaults c draft
  rw [hlater]
  exact ⟨Draft.operation_writeAll draft written, Draft.schema_writeAll draft written⟩

/-- The other configuration stores the same for an operation, perhaps in another order. -/
def Reorders (operation : String) (c c' : Config) : Prop :=
  match c.defaults.find? operation, c'.defaults.find? operation with
  | none, none => True
  | some table, some table' => table'.entries.Perm table.entries
  | _, _ => False

theorem laid_of_perm (hdone : ∀ v ∈ table.entries, Enters op draft v)
    (hperm : table'.entries.Perm table.entries) :
    (layerAll op draft table'.entries).failure = none ∧
      (layerAll op draft table'.entries).draft = (layerAll op draft table.entries).draft := by
  have hdone' : ∀ v ∈ table'.entries, Enters op draft v :=
    fun v hv => hdone v (hperm.mem_iff.1 hv)
  exact ⟨(failure_layerAll op draft _).2 hdone',
    (laid_layerAll table.nodup hdone).unique (laid_layerAll table'.nodup hdone') hperm⟩

theorem applyDefaults_reordered (h : (c.applyDefaults draft).failure = none)
    (hr : Reorders draft.operation c c') : (c'.applyDefaults draft).failure = none ∧
      (c'.applyDefaults draft).draft = (c.applyDefaults draft).draft := by
  unfold Reorders at hr
  split at hr
  · rename_i ht ht'
    rw [applyDefaults_none ht, applyDefaults_none ht']
    exact ⟨rfl, rfl⟩
  · rename_i table table' ht ht'
    cases hop : lookup draft.operation with
    | error cause =>
      rw [applyDefaults_unknown ht hop] at h
      cases h
    | ok op =>
      rw [applyDefaults_known ht hop, failure_layerAll] at h
      rw [applyDefaults_known ht hop, applyDefaults_known ht' hop]
      exact laid_of_perm h hr
  · exact hr.elim

theorem applyDefaults_again (h : (c.applyDefaults draft).failure = none) :
    (c.applyDefaults (c.applyDefaults draft).draft).failure = none ∧
      (c.applyDefaults (c.applyDefaults draft).draft).draft = (c.applyDefaults draft).draft := by
  cases ht : c.defaults.find? draft.operation with
  | none =>
    rw [applyDefaults_none ht, applyDefaults_none ht]
    exact ⟨rfl, rfl⟩
  | some table =>
    cases hop : lookup draft.operation with
    | error cause =>
      rw [applyDefaults_unknown ht hop] at h
      cases h
    | ok op =>
      obtain ⟨hoperation, hschema⟩ := schema_applyDefaults c draft
      have hknown := applyDefaults_known (hoperation.symm ▸ ht) (hoperation.symm ▸ hop)
      rw [applyDefaults_known ht hop] at h hschema hknown ⊢
      rw [failure_layerAll] at h
      have hlaid := laid_layerAll table.nodup h
      have henters : ∀ v ∈ table.entries, Enters op (layerAll op draft table.entries).draft v :=
        fun v hv => (enters_of_schema hschema).2 (h v hv)
      rw [hknown]
      exact ⟨(failure_layerAll _ _ _).2 henters,
        hlaid.again.unique (laid_layerAll table.nodup henters) (List.Perm.refl _)⟩

/-- Laying the stored values over a draft leaves its name and its settings with their order as they
are. Where all values enter, each is held by its setting and nothing else changes, now and every
further time, in whatever order they are stored; otherwise those before the first that is kept out
have gone in. Without a table for the operation nothing happens; with one the operation has to be a
standard one, even if the table is empty. -/
theorem applyDefaults_layers (c : Config) (draft : Draft) :
    let l := c.applyDefaults draft
    (l.draft.operation = draft.operation ∧ l.draft.schema = draft.schema) ∧
    (c.defaults.find? draft.operation = none → l.failure = none ∧ l.draft = draft) ∧
    (∀ table, c.defaults.find? draft.operation = some table →
      (table.entries = [] → l.draft = draft) ∧
      (∀ cause, lookup draft.operation = .error cause →
        l.failure = some (.probe cause) ∧ l.draft = draft) ∧
      ∀ op, lookup draft.operation = .ok op →
        (l.failure = none ↔ ∀ v ∈ table.entries, Enters op draft v) ∧
        (l.failure = none → Laid op table.entries draft l.draft) ∧
        ∀ e, l.failure = some e → ∃ before v after, table.entries = before ++ v :: after ∧
          Laid op before draft l.draft ∧ KeptOut op l.draft v e) ∧
    (l.failure = none →
      ((c.applyDefaults l.draft).failure = none ∧ (c.applyDefaults l.draft).draft = l.draft) ∧
      ∀ c', Reorders draft.operation c c' →
        (c'.applyDefaults draft).failure = none ∧ (c'.applyDefaults draft).draft = l.draft) := by
  intro l
  refine ⟨schema_applyDefaults c draft, ?_, ?_, ?_⟩
  · intro ht
    rw [show l = _ from applyDefaults_none ht]
    exact ⟨rfl, rfl⟩
  · intro table ht
    have hunknown : ∀ cause, lookup draft.operation = .error cause →
        l.failure = some (.probe cause) ∧ l.draft = draft := by
      intro cause hop
      rw [show l = _ from applyDefaults_unknown ht hop]
      exact ⟨rfl, rfl⟩
    refine ⟨?_, hunknown, ?_⟩
    · intro hempty
      cases hop : lookup draft.operation with
      | error cause => exact (hunknown cause hop).2
      | ok op =>
        rw [show l = _ from applyDefaults_known ht hop, hempty]
        rfl
    · intro op hop
      have hl : l = layerAll op draft table.entries := applyDefaults_known ht hop
      rw [hl]
      refine ⟨failure_layerAll op draft table.entries, ?_, ?_⟩
      · intro hdone
        exact laid_layerAll table.nodup ((failure_layerAll op draft table.entries).1 hdone)
      · intro e hfail
        obtain ⟨before, v, after, hsplit, hbefore, hdraft, hout⟩ := layerAll_stopped hfail
        have hnodup : (before.map Prod.fst).Nodup := by
          have hall := table.nodup
          rw [hsplit, List.map_append] at hall
          exact (List.nodup_append.1 hall).1
        exact ⟨before, v, after, hsplit, hdraft ▸ laid_layerAll hnodup hbefore, hout⟩
  · intro hdone
    exact ⟨applyDefaults_again hdone, fun _ hr => applyDefaults_reordered hdone hr⟩

/-- Three values for a web. -/
def wide : Config where
  logging := .standard
  output := .standard
  defaults := .ofList [("web", .ofList
    [("quick", .boolean false), ("axis", .integer 1), ("width", .integer 30)])]

/-- A web whose width is a flag. -/
def flagged : Draft :=
  (Draft.ofOperation Catalog.web).add "width" (.boolean "Width" "" true)

theorem applyDefaults_layers_wide :
    (∃ before v after, ((wide.defaults.find? "web").getD ∅).entries = before ++ v :: after ∧
      Laid Catalog.web before flagged (wide.applyDefaults flagged).draft ∧
      KeptOut Catalog.web (wide.applyDefaults flagged).draft v
        (.probe (.kindMismatch "width" .boolean .number))) ∧
    (wide.applyDefaults flagged).draft.value? "axis" = some (.choice 1) ∧
    (wide.applyDefaults (wide.applyDefaults (.ofOperation Catalog.web)).draft).draft =
      (wide.applyDefaults (.ofOperation Catalog.web)).draft := by
  have hfail : (wide.applyDefaults flagged).failure =
      some (.probe (.kindMismatch "width" .boolean .number)) := by decide +kernel
  have hdone : (wide.applyDefaults (.ofOperation Catalog.web)).failure = none := by decide +kernel
  obtain ⟨_, _, htable, _⟩ := applyDefaults_layers wide flagged
  obtain ⟨_, _, hknown⟩ := htable ((wide.defaults.find? "web").getD ∅) (by decide +kernel)
  obtain ⟨_, _, hagain⟩ := (applyDefaults_layers wide (.ofOperation Catalog.web)).2
  exact ⟨(hknown Catalog.web rfl).2.2 _ hfail, by decide +kernel, (hagain hdone).1.2⟩

/-- A table without values for an operation that is no standard one. -/
def vacant : Config where
  logging := .standard
  output := .standard
  defaults := .ofList [("custom", ∅)]

theorem applyDefaults_vacant :
    (∀ setting, vacant.stored? "custom" setting = none) ∧
    (vacant.applyDefaults (.empty "custom")).failure =
      some (.probe (.unknownOperation "custom")) :=
  ⟨fun _ => rfl, by decide +kernel⟩

end Config

end ProbeCycle
