import ProbeCycle.Proofs.Draft
import ProbeCycle.Proofs.Work

namespace ProbeCycle

open Setting (Descriptor Value)

/-- What can be done to a draft before it is finished. -/
inductive Change where
  | add (key : String) (descriptor : Descriptor)
  | addWith (key : String) (descriptor : Descriptor) (value : Value)
  | set (key : String) (value : Value)
  | setText (key input : String)
  | layer (config : Config)

namespace Change

def work : Change → Work Unit
  | add key descriptor => Work.add key descriptor
  | addWith key descriptor value => Work.addWith key descriptor value
  | set key value => Work.set key value
  | setText key input => Work.setText key input
  | layer config => Work.layer config

/-- The keys that a change puts into any draft that does not have them. -/
def inserted : Change → List String
  | add key _ => [key]
  | addWith key descriptor value => if descriptor.Accepts value then [key] else []
  | _ => []

/-- What a change can put into a draft: a setting with its default, which it need not accept, or
with a value that it accepts. -/
inductive Puts : Change → String → Draft.Entry → Prop where
  | add (key : String) (descriptor : Descriptor) :
    Puts (add key descriptor) key ⟨descriptor, descriptor.default⟩
  | addWith (key : String) {descriptor : Descriptor} {value : Value}
    (accepts : descriptor.Accepts value) :
    Puts (addWith key descriptor value) key ⟨descriptor, value⟩

theorem Puts.inserted {change : Change} {key : String} {entry : Draft.Entry}
    (h : change.Puts key entry) : change.inserted = [key] := by
  cases h with
  | add => rfl
  | addWith _ accepts => exact if_pos accepts

theorem Puts.kind {change : Change} {key : String} {entry : Draft.Entry}
    (h : change.Puts key entry) : entry.value.kind = entry.descriptor.kind := by
  cases h with
  | add _ d => exact d.kind_default
  | addWith _ accepts => exact accepts.1

/-- The changes of a single setting that can fail. -/
inductive Guarded : Change → Prop where
  | addWith (key : String) (descriptor : Descriptor) (value : Value) :
    Guarded (addWith key descriptor value)
  | set (key : String) (value : Value) : Guarded (set key value)
  | setText (key input : String) : Guarded (setText key input)

end Change

namespace Draft

variable {draft draft' later : Draft} {key : String} {value : Value} {change : Change}
  {P : Entry → Prop}

/-- What a draft is after a change, whether this went through or not. -/
def after (draft : Draft) (change : Change) : Draft :=
  match change.work.run draft with
  | .ok _ draft' => draft'
  | .error _ draft' => draft'

/-- A value that some setting of the draft accepts. -/
def Takes (draft : Draft) (key : String) (value : Value) : Prop :=
  ∃ d, draft.descriptor? key = some d ∧ d.Accepts value

theorem schema_writeAll (draft : Draft) (values : List (String × Value)) :
    (draft.writeAll values).schema = draft.schema := by
  induction values generalizing draft with
  | nil => rfl
  | cons v rest ih => exact (ih (draft.write v.1 v.2)).trans (schema_write draft v.1 v.2)

theorem takes_write {k : String} {other : Value} :
    (draft.write key value).Takes k other ↔ draft.Takes k other := by
  rw [Takes, descriptor?_write, Takes]

/-- The later draft comes about by writing values that the settings accept. -/
def Writes (draft later : Draft) : Prop :=
  ∃ written, later = draft.writeAll written ∧ ∀ v ∈ written, draft.Takes v.1 v.2

theorem Writes.none (draft : Draft) : draft.Writes draft :=
  ⟨[], rfl, by simp⟩

theorem Writes.cons (ht : draft.Takes key value) (h : (draft.write key value).Writes later) :
    draft.Writes later := by
  obtain ⟨written, hlater, htakes⟩ := h
  refine ⟨(key, value) :: written, hlater, ?_⟩
  exact List.forall_mem_cons.2 ⟨ht, fun v hv => takes_write.1 (htakes v hv)⟩

/-- Something is true of every setting with the value that it holds. -/
def All (P : Entry → Prop) (draft : Draft) : Prop :=
  ∀ key entry, draft.entries.find? key = some entry → P entry

/-- What is true of a setting stays true with any other value that the setting accepts. -/
def Stable (P : Entry → Prop) : Prop :=
  ∀ descriptor old value, P ⟨descriptor, old⟩ → descriptor.Accepts value → P ⟨descriptor, value⟩

theorem All.insert (h : draft.All P) (key : String) {entry : Entry} (hp : P entry) :
    All P { draft with entries := draft.entries.insert key entry } := by
  intro k other ho
  rw [Table.find?_insert] at ho
  split at ho
  · cases ho
    exact hp
  · exact h k other ho

theorem All.write (hstable : Stable P) (h : draft.All P) (ht : draft.Takes key value) :
    (draft.write key value).All P := by
  obtain ⟨d, hd, ha⟩ := ht
  obtain ⟨entry, hentry, rfl⟩ := Option.map_eq_some_iff.1 hd
  exact forall_write h hd (hstable _ _ _ (h key entry hentry) ha)

theorem Writes.all (hstable : Stable P) (h : draft.Writes later) (hp : draft.All P) :
    later.All P := by
  obtain ⟨written, rfl, ht⟩ := h
  induction written generalizing draft with
  | nil => exact hp
  | cons v rest ih =>
    obtain ⟨htakes, hrest⟩ := List.forall_mem_cons.1 ht
    exact ih (hp.write hstable htakes) (fun w hw => takes_write.2 (hrest w hw))

/-- Whatever settings the draft has, stored values go in only where these accept them. -/
theorem writes_layerAll (op : Operation) (draft : Draft) (values : List (String × StoredValue)) :
    draft.Writes (Config.layerAll op draft values).draft := by
  induction values generalizing draft with
  | nil => exact Writes.none draft
  | cons v rest ih =>
    obtain ⟨key, stored⟩ := v
    rw [Config.layerAll]
    cases hone : Config.layerOne op draft key stored with
    | error e => exact Writes.none draft
    | ok result =>
      obtain ⟨value, _, hset⟩ := Steps.bind_eq_ok.1 hone
      obtain ⟨draft', hset, hresult⟩ := Steps.bind_eq_ok.1 hset
      obtain ⟨htakes, rfl⟩ := set_eq_ok.1 hset
      obtain rfl := Except.ok.inj hresult
      exact Writes.cons htakes (ih (draft.write key value))

theorem writes_applyDefaults (config : Config) (draft : Draft) :
    draft.Writes (config.applyDefaults draft).draft := by
  unfold Config.applyDefaults
  cases config.defaults.find? draft.operation with
  | none => exact Writes.none draft
  | some values =>
    cases lookup draft.operation with
    | error e => exact Writes.none draft
    | ok op => exact writes_layerAll op draft values.entries

theorem addWith_eq_ok {d : Descriptor} : draft.addWith key d value = .ok draft' ↔
    d.Accepts value ∧ draft' = { draft with entries := draft.entries.insert key ⟨d, value⟩ } := by
  rw [addWith, Steps.bind_eq_ok]
  simp only [Setting.Descriptor.accept_eq_ok, and_assoc, exists_and_left, exists_eq_left']
  simp only [pure, Except.pure, Except.ok.injEq, eq_comm]

/-- A change of a single setting either goes through or leaves the draft as it was. -/
theorem after_of_ending (change : Change) {r : Except ProbeError Draft}
    (h : change.work.run draft = Work.ending draft r) :
    r = .ok (draft.after change) ∨ (∃ e, r = .error e) ∧ draft.after change = draft := by
  unfold after
  rw [h]
  cases r with
  | ok draft' => exact Or.inl rfl
  | error e => exact Or.inr ⟨⟨e, rfl⟩, rfl⟩

theorem after_layer (draft : Draft) (config : Config) :
    draft.after (.layer config) = (config.applyDefaults draft).draft := by
  have h : (Change.layer config).work.run draft = Work.layered (config.applyDefaults draft) :=
    Work.run_layer config
  rw [after, h, Work.layered]
  cases (config.applyDefaults draft).failure <;> rfl

/-- All that a change can do: put in a setting, or write values that the settings accept. -/
theorem after_cases (draft : Draft) (change : Change) :
    (∃ key entry, change.Puts key entry ∧
      draft.after change = { draft with entries := draft.entries.insert key entry }) ∨
    change.inserted = [] ∧ draft.Writes (draft.after change) := by
  have hsame : ∀ {later : Draft}, later = draft → draft.Writes later := by
    intro later h
    exact h ▸ Writes.none draft
  cases change with
  | add key d => exact Or.inl ⟨key, ⟨d, d.default⟩, .add key d, rfl⟩
  | addWith key d value =>
    rcases after_of_ending (.addWith key d value) (Work.run_addWith key d value) with
      hok | ⟨⟨e, he⟩, h⟩
    · obtain ⟨ha, hdraft⟩ := addWith_eq_ok.1 hok
      exact Or.inl ⟨key, ⟨d, value⟩, .addWith key ha, hdraft⟩
    · have ha : ¬ d.Accepts value := by
        intro ha
        rw [addWith_eq_ok.2 ⟨ha, rfl⟩] at he
        cases he
      exact Or.inr ⟨if_neg ha, hsame h⟩
  | set key value =>
    rcases after_of_ending (.set key value) (Work.run_set key value) with hok | ⟨_, h⟩
    · obtain ⟨htakes, hdraft⟩ := set_eq_ok.1 hok
      exact Or.inr ⟨rfl, Writes.cons htakes (hdraft ▸ Writes.none _)⟩
    · exact Or.inr ⟨rfl, hsame h⟩
  | setText key input =>
    rcases after_of_ending (.setText key input) (Work.run_setText key input) with hok | ⟨_, h⟩
    · obtain ⟨d, value, hd, hp, hdraft⟩ := setText_eq_ok.1 hok
      exact Or.inr ⟨rfl, Writes.cons ⟨d, hd, Descriptor.accepts_of_parse hp⟩
        (hdraft ▸ Writes.none _)⟩
    · exact Or.inr ⟨rfl, hsame h⟩
  | layer config =>
    rw [after_layer]
    exact Or.inr ⟨rfl, writes_applyDefaults config draft⟩

theorem All.after (hstable : Stable P) (h : draft.All P)
    (hputs : ∀ key entry, change.Puts key entry → P entry) : (draft.after change).All P := by
  rcases after_cases draft change with ⟨key, entry, hput, hafter⟩ | ⟨_, hwrites⟩
  · rw [hafter]
    exact h.insert key (hputs key entry hput)
  · exact hwrites.all hstable h

end Draft

end ProbeCycle
