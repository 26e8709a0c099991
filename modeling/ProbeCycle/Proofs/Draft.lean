import ProbeCycle.Draft
import ProbeCycle.Proofs.Catalog
import ProbeCycle.Proofs.Steps

namespace ProbeCycle

open Setting (Descriptor Value)

namespace Draft

variable {draft draft' : Draft} {key k : String} {value : Value}

/-- The settings of a draft without their values. -/
def schema (draft : Draft) : List (String × Descriptor) :=
  draft.entries.entries.map fun (key, entry) => (key, entry.descriptor)

def descriptor? (draft : Draft) (key : String) : Option Descriptor :=
  (draft.entries.find? key).map Entry.descriptor

def value? (draft : Draft) (key : String) : Option Value :=
  (draft.entries.find? key).map Entry.value

/-- The draft with another value for a setting, whether the setting accepts it or not. -/
def write (draft : Draft) (key : String) (value : Value) : Draft :=
  match draft.entries.find? key with
  | some entry => { draft with entries := draft.entries.insert key { entry with value } }
  | none => draft

def writeAll (draft : Draft) (values : List (String × Value)) : Draft :=
  values.foldl (fun draft (key, value) => draft.write key value) draft

/-- Every setting accepts the value that it holds. -/
def Sound (draft : Draft) : Prop :=
  ∀ key entry, draft.entries.find? key = some entry → entry.descriptor.Accepts entry.value

theorem lookup_schema (draft : Draft) (key : String) :
    draft.schema.lookup key = draft.descriptor? key :=
  lookup_map Entry.descriptor draft.entries.entries key

theorem keys_schema (draft : Draft) : draft.schema.map Prod.fst = draft.entries.keys := by
  simp [schema, Table.keys]

theorem entries_eq (draft : Draft) : draft.entries.entries =
    draft.schema.map fun (key, d) => (key, ⟨d, (draft.value? key).getD d.default⟩) := by
  have hvalue : ∀ e ∈ draft.entries.entries,
      (draft.value? e.1).getD e.2.descriptor.default = e.2.value := by
    intro e he
    rw [value?, Table.find?_eq_some.2 he]
    rfl
  rw [schema, List.map_map]
  refine (List.map_id' _).symm.trans (List.map_congr_left ?_)
  intro e he
  simp only [Function.comp_apply, hvalue e he]

/-- A draft is its operation, its settings and what these hold. -/
theorem eq_of_schema (hoperation : draft.operation = draft'.operation)
    (hschema : draft.schema = draft'.schema)
    (hvalue : ∀ key, draft.value? key = draft'.value? key) : draft = draft' := by
  have hentries : draft.entries = draft'.entries := by
    apply Table.ext
    rw [entries_eq draft, entries_eq draft', hschema]
    simp only [hvalue]
  exact congrArg₂ Draft.mk hoperation hentries

theorem write_of_find? {entry : Entry} (h : draft.entries.find? key = some entry) :
    draft.write key value =
      { draft with entries := draft.entries.insert key { entry with value } } := by
  rw [write, h]

@[simp] theorem operation_write (draft : Draft) (key : String) (value : Value) :
    (draft.write key value).operation = draft.operation := by
  unfold write
  split <;> rfl

@[simp] theorem schema_write (draft : Draft) (key : String) (value : Value) :
    (draft.write key value).schema = draft.schema := by
  cases h : draft.entries.find? key with
  | none => simp [write, h]
  | some entry =>
    rw [write_of_find? h]
    have hl : (draft.entries.entries.lookup key).map Entry.descriptor =
        some ({ entry with value } : Entry).descriptor := congrArg (Option.map _) h
    exact Table.map_store Entry.descriptor hl

@[simp] theorem descriptor?_write (draft : Draft) (key k : String) (value : Value) :
    (draft.write key value).descriptor? k = draft.descriptor? k := by
  rw [← lookup_schema, schema_write, lookup_schema]

theorem find?_write (draft : Draft) (key k : String) (value : Value) :
    (draft.write key value).entries.find? k =
      (draft.entries.find? k).map fun entry => if k = key then { entry with value } else entry := by
  cases h : draft.entries.find? key with
  | none =>
    have hw : draft.write key value = draft := by simp [write, h]
    rw [hw]
    by_cases hk : k = key
    · simp [hk, h]
    · simp [hk]
  | some entry =>
    rw [write_of_find? h]
    by_cases hk : k = key <;> simp [hk, h]

theorem value?_write (draft : Draft) (key k : String) (value : Value) :
    (draft.write key value).value? k =
      (draft.value? k).map fun old => if k = key then value else old := by
  rw [value?, find?_write, value?, Option.map_map, Option.map_map]
  congr 1
  funext entry
  by_cases hk : k = key <;> simp [hk]

/-- What holds of every entry still does after a write with which it holds of the new one. -/
theorem forall_write {P : Entry → Prop} {d : Descriptor}
    (h : ∀ k entry, draft.entries.find? k = some entry → P entry)
    (hd : draft.descriptor? key = some d) (hp : P ⟨d, value⟩) :
    ∀ k entry, (draft.write key value).entries.find? k = some entry → P entry := by
  obtain ⟨entry, hf, rfl⟩ := Option.map_eq_some_iff.1 hd
  intro k entry' he
  rw [find?_write] at he
  obtain ⟨old, ho, rfl⟩ := Option.map_eq_some_iff.1 he
  split
  · rename_i hk
    obtain rfl : old = entry := Option.some.inj (ho.symm.trans (hk ▸ hf))
    exact hp
  · exact h k old ho

theorem Sound.write {d : Descriptor} (hs : draft.Sound) (hd : draft.descriptor? key = some d)
    (ha : d.Accepts value) : (draft.write key value).Sound :=
  forall_write (P := fun entry => entry.descriptor.Accepts entry.value) hs hd ha

theorem set_eq_ok : draft.set key value = .ok draft' ↔
    (∃ d, draft.descriptor? key = some d ∧ d.Accepts value) ∧
      draft' = draft.write key value := by
  unfold set entry
  cases h : draft.entries.find? key with
  | none => simp [descriptor?, h, bind, Except.bind]
  | some entry =>
    simp only [Steps.bind_eq_ok, Except.ok.injEq, exists_eq_left', Setting.Descriptor.accept_eq_ok,
      write_of_find? h, descriptor?, h, Option.map_some, Option.some.injEq, pure, Except.pure]
    constructor
    · intro hrun
      obtain ⟨_, ⟨ha, rfl⟩, rfl⟩ := hrun
      exact ⟨ha, rfl⟩
    · intro hrun
      obtain ⟨ha, rfl⟩ := hrun
      exact ⟨value, ⟨ha, rfl⟩, rfl⟩

/-- The second check of a typed value is one that it has passed already. -/
theorem setText_eq_ok {input : String} : draft.setText key input = .ok draft' ↔
    ∃ d value, draft.descriptor? key = some d ∧ d.parse key input = .ok value ∧
      draft' = draft.write key value := by
  unfold setText entry
  cases h : draft.entries.find? key with
  | none => simp [descriptor?, h, bind, Except.bind]
  | some entry =>
    simp only [Steps.bind_eq_ok, Except.ok.injEq, exists_eq_left', set_eq_ok, descriptor?, h,
      Option.map_some, Option.some.injEq]
    constructor
    · intro hrun
      obtain ⟨value, hp, _, rfl⟩ := hrun
      exact ⟨_, value, rfl, hp, rfl⟩
    · intro hrun
      obtain ⟨_, value, rfl, hp, rfl⟩ := hrun
      exact ⟨value, hp, Setting.Descriptor.accepts_of_parse hp, rfl⟩

/-- The last write wins, and a write to a key that is not there is lost. -/
theorem value?_writeAll (draft : Draft) (values : List (String × Value)) (key : String) :
    (draft.writeAll values).value? key =
      (draft.value? key).map (values.reverse.lookup key).getD := by
  induction values generalizing draft with
  | nil =>
    have hw : draft.writeAll [] = draft := rfl
    rw [hw]
    cases draft.value? key <;> rfl
  | cons written rest ih =>
    obtain ⟨k, value⟩ := written
    have hr : (draft.writeAll ((k, value) :: rest)).value? key =
        ((draft.write k value).writeAll rest).value? key := rfl
    rw [hr, ih, value?_write, List.reverse_cons, List.lookup_append, Option.map_map]
    congr 1
    funext old
    cases rest.reverse.lookup key with
    | some later => simp
    | none =>
      by_cases hk : key = k
      · simp [hk]
      · have hb : (key == k) = false := by simpa using hk
        simp [hk, hb, List.lookup_cons]

end Draft

/-- The draft has the settings of the operation, with values that they accept. -/
structure Draft.Over (op : Operation) (draft : Draft) : Prop where
  operation : draft.operation = op.key
  schema : draft.schema = op.settings.entries
  sound : draft.Sound

/-- A value that some setting of the operation accepts. -/
def Operation.Takes (op : Operation) (key : String) (value : Value) : Prop :=
  ∃ d, op.settings.find? key = some d ∧ d.Accepts value

/-- Why an operation does not take a value for one of its settings, or for what is none. -/
def Operation.Refuses (op : Operation) (key : String) (value : Value) (e : ProbeError) : Prop :=
  match op.settings.find? key with
  | none => e = .unknownSetting op.key key
  | some d => d.Refuses key value e

namespace Draft.Over

variable {op : Operation} {draft draft' : Draft} {key : String} {value : Value} {e : ProbeError}

theorem descriptor? (h : Over op draft) (key : String) :
    draft.descriptor? key = op.settings.find? key := by
  rw [← lookup_schema, h.schema, Table.find?]

theorem write (h : Over op draft) (ht : op.Takes key value) : Over op (draft.write key value) where
  operation := (operation_write draft key value).trans h.operation
  schema := (schema_write draft key value).trans h.schema
  sound := by
    obtain ⟨d, hd, ha⟩ := ht
    exact h.sound.write ((h.descriptor? key).trans hd) ha

theorem set_eq_ok (h : Over op draft) : draft.set key value = .ok draft' ↔
    op.Takes key value ∧ draft' = draft.write key value := by
  rw [Draft.set_eq_ok, h.descriptor? key, Operation.Takes]

theorem set_eq_error (h : draft.Over op) :
    draft.set key value = .error e ↔ op.Refuses key value e := by
  unfold Operation.Refuses
  rw [← h.descriptor? key, ← h.operation]
  unfold Draft.set Draft.entry Draft.descriptor?
  cases draft.entries.find? key with
  | none => simp [bind, Except.bind, eq_comm]
  | some entry =>
    dsimp only [Option.map_some]
    rw [← Setting.Descriptor.accept_eq_error]
    simp [Steps.bind_eq_error, pure, Except.pure]

theorem writeAll (h : Over op draft) {values : List (String × Value)}
    (ht : ∀ v ∈ values, op.Takes v.1 v.2) : Over op (draft.writeAll values) := by
  induction values generalizing draft with
  | nil => exact h
  | cons v rest ih =>
    exact ih (h.write (ht v (by simp))) (fun w hw => ht w (by simp [hw]))

theorem setAll_eq_ok (h : Over op draft) (values : List (String × Value)) :
    values.foldlM (fun draft (key, value) => draft.set key value) draft = .ok draft' ↔
      (∀ v ∈ values, op.Takes v.1 v.2) ∧ draft' = draft.writeAll values := by
  have hstep : ∀ (draft : Draft) (v : String × Value) draft', Over op draft →
      (draft.set v.1 v.2 = .ok draft' ↔
        ∃ w, (op.Takes v.1 v.2 ∧ v = w) ∧ draft' = draft.write w.1 w.2) := by
    intro draft v draft' h
    simp only [h.set_eq_ok, and_assoc, exists_and_left, exists_eq_left']
  have hkeep : ∀ (draft : Draft) (v w : String × Value), Over op draft →
      op.Takes v.1 v.2 ∧ v = w → Over op (draft.write w.1 w.2) := by
    intro draft v w h hw
    exact h.write (hw.2 ▸ hw.1)
  refine (Steps.foldlM_eq_ok hstep hkeep values h).trans ?_
  simp only [List.forall₂_and_left, List.forall₂_eq_eq_eq]
  constructor
  · intro hw
    obtain ⟨_, ⟨ht, rfl⟩, rfl⟩ := hw
    exact ⟨ht, rfl⟩
  · intro hw
    exact ⟨values, ⟨hw.1, rfl⟩, hw.2⟩

/-- The run gets as far as the first value that is refused. -/
theorem setAll_eq_error (h : Over op draft) (values : List (String × Value)) :
    values.foldlM (fun draft (key, value) => draft.set key value) draft = .error e ↔
      ∃ before v after, values = before ++ v :: after ∧
        (∀ b ∈ before, op.Takes b.1 b.2) ∧ op.Refuses v.1 v.2 e := by
  induction values generalizing draft with
  | nil => simp [pure, Except.pure]
  | cons v rest ih =>
    rw [List.foldlM_cons, Steps.bind_eq_error]
    constructor
    · intro hrun
      rcases hrun with hv | ⟨_, hset, hrest⟩
      · exact ⟨[], v, rest, rfl, by simp, h.set_eq_error.1 hv⟩
      · obtain ⟨ht, rfl⟩ := h.set_eq_ok.1 hset
        obtain ⟨before, w, after, rfl, hbefore, hw⟩ := (ih (h.write ht)).1 hrest
        exact ⟨v :: before, w, after, rfl, List.forall_mem_cons.2 ⟨ht, hbefore⟩, hw⟩
    · intro hrun
      obtain ⟨before, w, after, hsplit, hbefore, hw⟩ := hrun
      cases before with
      | nil =>
        obtain ⟨rfl, rfl⟩ := List.cons.inj hsplit
        exact Or.inl (h.set_eq_error.2 hw)
      | cons b before =>
        obtain ⟨rfl, rfl⟩ := List.cons.inj hsplit
        obtain ⟨ht, hbefore⟩ := List.forall_mem_cons.1 hbefore
        exact Or.inr ⟨_, h.set_eq_ok.2 ⟨ht, rfl⟩,
          (ih (h.write ht)).2 ⟨before, w, after, rfl, hbefore, hw⟩⟩

end Draft.Over

namespace Draft

private theorem entries_addAll (settings : List (String × Descriptor)) (draft : Draft)
    (h : (draft.entries.keys ++ settings.map Prod.fst).Nodup) :
    (settings.foldl (fun draft (key, d) => draft.add key d) draft).operation = draft.operation ∧
    (settings.foldl (fun draft (key, d) => draft.add key d) draft).entries.entries =
      draft.entries.entries ++ settings.map fun (key, d) => (key, ⟨d, d.default⟩) := by
  induction settings generalizing draft with
  | nil => simp
  | cons setting rest ih =>
    obtain ⟨key, d⟩ := setting
    have hnew : key ∉ draft.entries.keys := by
      intro hm
      exact (List.nodup_append.1 h).2.2 key hm key (by simp) rfl
    have he : (draft.add key d).entries.entries =
        draft.entries.entries ++ [(key, ⟨d, d.default⟩)] :=
      Table.store_of_not_mem _ hnew
    have hk : (draft.add key d).entries.keys = draft.entries.keys ++ [key] := by
      rw [Table.keys, he]
      simp [Table.keys]
    have hr := ih (draft.add key d) (by rw [hk]; simpa using h)
    exact ⟨hr.1, by rw [List.foldl_cons, hr.2, he]; simp⟩

theorem entries_ofOperation (op : Operation) : (ofOperation op).entries.entries =
    op.settings.entries.map fun (key, d) => (key, ⟨d, d.default⟩) := by
  have h := (entries_addAll op.settings.entries (empty op.key) op.settings.nodup).2
  simpa [ofOperation, empty] using h

theorem operation_ofOperation (op : Operation) : (ofOperation op).operation = op.key :=
  (entries_addAll op.settings.entries (empty op.key) op.settings.nodup).1

theorem find?_ofOperation (op : Operation) (key : String) :
    (ofOperation op).entries.find? key =
      (op.settings.find? key).map fun d => ⟨d, d.default⟩ := by
  rw [Table.find?, entries_ofOperation]
  exact lookup_map (fun d => Entry.mk d d.default) _ key

theorem over_ofOperation {op : Operation} (h : op.WellFormed) : Over op (ofOperation op) where
  operation := operation_ofOperation op
  schema := by
    rw [schema, entries_ofOperation, List.map_map]
    exact List.map_id _
  sound := by
    intro key entry he
    rw [find?_ofOperation] at he
    obtain ⟨d, hd, rfl⟩ := Option.map_eq_some_iff.1 he
    exact h.accepts _ (Table.find?_eq_some.1 hd)

theorem value?_ofOperation (op : Operation) (key : String) :
    (ofOperation op).value? key = (op.settings.find? key).map Descriptor.default := by
  rw [value?, find?_ofOperation, Option.map_map]
  rfl

end Draft

end ProbeCycle
