import ProbeCycle.Snapshot
import ProbeCycle.Proofs.Draft

namespace ProbeCycle

open Setting (Descriptor Value)

/-- Whether the condition of a setting holds, judged by the key that it names. -/
def Snapshot.appears (s : Snapshot) (item : Item) : Bool :=
  match item.descriptor.condition with
  | none => true
  | some c => (s.value? c.setting).any (·.equal c.value)

namespace Draft

variable {draft : Draft} {s : Snapshot}

def item (draft : Draft) (setting : String × Entry) : Snapshot.Item where
  key := setting.1
  descriptor := setting.2.descriptor
  value := setting.2.value
  controller := setting.2.descriptor.condition.bind (draft.entries.place? ·.setting)

/-- What building gives, unless a condition is unresolved. -/
def snapshot (draft : Draft) : Snapshot :=
  ⟨draft.operation, draft.entries.entries.map draft.item⟩

theorem resolve_eq_ok {key : String} {entry : Entry} {item : Snapshot.Item} :
    draft.resolve key entry = .ok item ↔
      (∀ c, entry.descriptor.condition = some c → c.setting ∈ draft.schema.map Prod.fst) ∧
        item = draft.item (key, entry) := by
  rw [keys_schema]
  unfold resolve Draft.item
  cases hc : entry.descriptor.condition with
  | none => simp [eq_comm]
  | some c =>
    dsimp only
    cases hp : draft.entries.place? c.setting with
    | none => simp [Table.place?_eq_none.1 hp]
    | some place =>
      have hm : c.setting ∈ draft.entries.keys := by
        by_contra hn
        rw [Table.place?_eq_none.2 hn] at hp
        cases hp
      simp [hm, hp, eq_comm]

theorem closed_schema : Setting.Closed draft.schema ↔ ∀ e ∈ draft.entries.entries, ∀ c,
    e.2.descriptor.condition = some c → c.setting ∈ draft.schema.map Prod.fst := by
  constructor
  · intro h e he c hc
    exact h (e.1, e.2.descriptor) (List.mem_map.2 ⟨e, he, rfl⟩) c hc
  · intro h setting hs c hc
    obtain ⟨e, he, rfl⟩ := List.mem_map.1 hs
    exact h e he c hc

theorem build_eq_ok : draft.build = .ok s ↔ Setting.Closed draft.schema ∧ s = draft.snapshot := by
  have hr : ∀ (e : String × Entry) (item : Snapshot.Item), draft.resolve e.1 e.2 = .ok item ↔
      (∀ c, e.2.descriptor.condition = some c → c.setting ∈ draft.schema.map Prod.fst) ∧
        item = draft.item e := fun e item => resolve_eq_ok
  simp only [build, Steps.bind_eq_ok, Steps.mapM_eq_ok_map hr, closed_schema]
  constructor
  · intro hrun
    obtain ⟨items, ⟨hc, rfl⟩, h⟩ := hrun
    exact ⟨hc, (Except.ok.inj h).symm⟩
  · intro hrun
    obtain ⟨hc, rfl⟩ := hrun
    exact ⟨_, ⟨hc, rfl⟩, rfl⟩

theorem find?_snapshot (draft : Draft) (key : String) : draft.snapshot.find? key =
    (draft.entries.find? key).map fun entry => draft.item (key, entry) := by
  have hk : ((fun item : Snapshot.Item => item.key == key) ∘ draft.item) =
      fun e : String × Entry => e.1 == key := rfl
  rw [Snapshot.find?, snapshot, List.find?_map, hk, find?_key, Option.map_map]
  rfl

theorem value?_snapshot (draft : Draft) (key : String) :
    draft.snapshot.value? key = draft.value? key := by
  rw [Snapshot.value?, find?_snapshot, Option.map_map]
  rfl

/-- The value at the resolved place is the value under the key of the condition. -/
theorem includes_eq_appears (hc : Setting.Closed draft.schema) {item : Snapshot.Item}
    (hi : item ∈ draft.snapshot.items) :
    draft.snapshot.includes item = draft.snapshot.appears item := by
  obtain ⟨e, he, rfl⟩ := List.mem_map.1 hi
  unfold Snapshot.includes Snapshot.appears
  cases hcond : e.2.descriptor.condition with
  | none => simp [Draft.item, hcond]
  | some c =>
    have hm : c.setting ∈ draft.entries.keys := by
      rw [← keys_schema]
      exact closed_schema.1 hc e he c hcond
    cases hp : draft.entries.place? c.setting with
    | none => exact absurd hm (Table.place?_eq_none.1 hp)
    | some place =>
      obtain ⟨entry, hf, hplace⟩ := Table.getElem?_place? hp
      have hitem : draft.snapshot.items[place]? = some (draft.item (c.setting, entry)) := by
        rw [snapshot, List.getElem?_map, hplace]
        rfl
      have hv : draft.snapshot.value? c.setting = some entry.value := by
        rw [value?_snapshot, value?, hf]
        rfl
      simp [Draft.item, hcond, hp, hv, hitem]

end Draft

namespace Draft.Over

variable {op : Operation} {draft : Draft}

theorem closed (h : Over op draft) (hw : op.WellFormed) : Setting.Closed draft.schema := by
  rw [h.schema]
  exact hw.closed

theorem build (h : Over op draft) (hw : op.WellFormed) : draft.build = .ok draft.snapshot :=
  build_eq_ok.2 ⟨h.closed hw, rfl⟩

/-- Each setting of the snapshot is one of the operation, with a value that it accepts. -/
theorem snapshot_item (h : Over op draft) {item : Snapshot.Item}
    (hi : item ∈ draft.snapshot.items) :
    op.settings.find? item.key = some item.descriptor ∧ item.descriptor.Accepts item.value := by
  obtain ⟨e, he, rfl⟩ := List.mem_map.1 hi
  have hf : draft.entries.find? e.1 = some e.2 := Table.find?_eq_some.2 he
  constructor
  · change op.settings.find? e.1 = some e.2.descriptor
    rw [← h.descriptor? e.1, Draft.descriptor?, hf]
    rfl
  · exact h.sound e.1 e.2 hf

end Draft.Over

end ProbeCycle
