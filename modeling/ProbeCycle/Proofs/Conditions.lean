import ProbeCycle.Proofs.Snapshot

namespace ProbeCycle

theorem Snapshot.appears_iff {s : Snapshot} {item : Item} : s.appears item = true ↔
    item.descriptor.condition = none ∨ ∃ c, item.descriptor.condition = some c ∧
      ∃ value, s.value? c.setting = some value ∧ value.equal c.value = true := by
  unfold appears
  cases item.descriptor.condition with
  | none => simp
  | some c => simp [Option.any_eq_true]

namespace Draft

variable {draft : Draft} {s : Snapshot} {item : Snapshot.Item}

/-- The condition of a setting, if it has one, depends on a key of the draft. -/
def Resolvable (draft : Draft) (entry : Entry) : Prop :=
  ∀ c, entry.descriptor.condition = some c → c.setting ∈ draft.entries.keys

theorem closed_iff_resolvable :
    Setting.Closed draft.schema ↔ ∀ e ∈ draft.entries.entries, draft.Resolvable e.2 := by
  rw [closed_schema, keys_schema]
  rfl

theorem exists_build : (∃ s, draft.build = .ok s) ↔
    ∀ e ∈ draft.entries.entries, draft.Resolvable e.2 := by
  simp only [build_eq_ok, exists_and_left, exists_eq, and_true, closed_iff_resolvable]

theorem resolve_eq_error {key : String} {entry : Entry} {err : ProbeError} :
    draft.resolve key entry = .error err ↔ ∃ c, entry.descriptor.condition = some c ∧
      c.setting ∉ draft.entries.keys ∧ err = .unresolvedCondition key c.setting := by
  unfold resolve
  cases hc : entry.descriptor.condition with
  | none => simp
  | some c =>
    cases hp : draft.entries.place? c.setting with
    | none =>
      have hm : c.setting ∉ draft.entries.keys := Table.place?_eq_none.1 hp
      simp [hp, hm, eq_comm]
    | some place =>
      have hm : c.setting ∈ draft.entries.keys := by
        by_contra hn
        rw [Table.place?_eq_none.2 hn] at hp
        cases hp
      simp [hp, hm]

theorem resolvable_iff {key : String} {entry : Entry} :
    (∃ item, draft.resolve key entry = .ok item) ↔ draft.Resolvable entry := by
  simp only [resolve_eq_ok, exists_and_left, exists_eq, and_true, keys_schema]
  rfl

theorem build_eq_error {err : ProbeError} : draft.build = .error err ↔
    ∃ before e after c, draft.entries.entries = before ++ e :: after ∧
      (∀ b ∈ before, draft.Resolvable b.2) ∧ e.2.descriptor.condition = some c ∧
      c.setting ∉ draft.entries.keys ∧ err = .unresolvedCondition e.1 c.setting := by
  have hpure : ∀ items : List Snapshot.Item,
      (pure ⟨draft.operation, items⟩ : Except ProbeError Snapshot) ≠ .error err :=
    fun _ h => nomatch h
  simp only [build, Steps.bind_eq_error, Steps.mapM_eq_error, hpure, and_false, exists_false,
    or_false, resolvable_iff, resolve_eq_error]
  simp only [← exists_and_left]

theorem items_snapshot (draft : Draft) : draft.snapshot.items.map (fun item =>
    (item.key, (⟨item.descriptor, item.value⟩ : Entry))) = draft.entries.entries := by
  rw [snapshot, List.map_map]
  exact List.map_id _

theorem key_snapshot (draft : Draft) (place : Nat) :
    draft.snapshot.items[place]?.map Snapshot.Item.key = draft.entries.keys[place]? := by
  rw [snapshot, Table.keys, List.getElem?_map, List.getElem?_map, Option.map_map]
  rfl

/-- The place that stands for a condition is the one place where its key is. -/
theorem controller_snapshot (hi : item ∈ draft.snapshot.items) {place : Nat}
    (hp : item.controller = some place) : place < draft.snapshot.items.length ∧
      ∃ c, item.descriptor.condition = some c ∧ ∀ other,
        draft.snapshot.items[other]?.map Snapshot.Item.key = some c.setting ↔ other = place := by
  obtain ⟨e, he, rfl⟩ := List.mem_map.1 hi
  obtain ⟨c, hc, hplace⟩ := Option.bind_eq_some_iff.1 hp
  have hkey := Table.place?_eq_some.1 hplace
  refine ⟨?_, c, hc, ?_⟩
  · obtain ⟨hlt, _⟩ := List.getElem?_eq_some_iff.1 hkey
    simpa [snapshot, Table.keys] using hlt
  · intro other
    rw [key_snapshot, ← Table.place?_eq_some, hplace, Option.some.injEq, eq_comm]

theorem controller_isSome (hc : Setting.Closed draft.schema)
    (hi : item ∈ draft.snapshot.items) :
    item.controller.isSome = item.descriptor.condition.isSome := by
  obtain ⟨e, he, rfl⟩ := List.mem_map.1 hi
  cases hcond : e.2.descriptor.condition with
  | none => simp [Draft.item, hcond]
  | some c =>
    have hm : c.setting ∈ draft.entries.keys := closed_iff_resolvable.1 hc e he c hcond
    cases hp : draft.entries.place? c.setting with
    | none => exact absurd hm (Table.place?_eq_none.1 hp)
    | some place => simp [Draft.item, hcond, hp]

/-- The snapshot has the settings of the draft in their order, and whether one of them appears
can be told from the keys alone. -/
structure Resolved (draft : Draft) (s : Snapshot) : Prop where
  operation : s.operation = draft.operation
  entries : s.items.map (fun item => (item.key, (⟨item.descriptor, item.value⟩ : Entry))) =
    draft.entries.entries
  conditional : ∀ item ∈ s.items, item.controller.isSome = item.descriptor.condition.isSome
  place : ∀ item ∈ s.items, ∀ place, item.controller = some place → place < s.items.length ∧
    ∃ c, item.descriptor.condition = some c ∧ ∀ other,
      s.items[other]?.map Snapshot.Item.key = some c.setting ↔ other = place
  includes : ∀ item ∈ s.items, s.includes item = true ↔
    item.descriptor.condition = none ∨ ∃ c, item.descriptor.condition = some c ∧
      ∃ value, s.value? c.setting = some value ∧ value.equal c.value = true

theorem resolved_snapshot (hc : Setting.Closed draft.schema) : draft.Resolved draft.snapshot where
  operation := rfl
  entries := items_snapshot draft
  conditional := fun _ hi => controller_isSome hc hi
  place := fun _ hi _ hp => controller_snapshot hi hp
  includes := by
    intro item hi
    rw [includes_eq_appears hc hi, Snapshot.appears_iff]

/-- Whatever was done to a draft, it can be finished exactly if the conditions name keys that it
has; the first that does not is told of, and the places of the others are those of the keys. -/
theorem build_agrees_with_keys (draft : Draft) :
    ((∃ s, draft.build = .ok s) ↔ ∀ e ∈ draft.entries.entries, draft.Resolvable e.2) ∧
    (∀ err, draft.build = .error err ↔
      ∃ before e after c, draft.entries.entries = before ++ e :: after ∧
        (∀ b ∈ before, draft.Resolvable b.2) ∧ e.2.descriptor.condition = some c ∧
        c.setting ∉ draft.entries.keys ∧ err = .unresolvedCondition e.1 c.setting) ∧
    ∀ s, draft.build = .ok s → draft.Resolved s := by
  refine ⟨exists_build, fun _ => build_eq_error, ?_⟩
  intro s hs
  obtain ⟨hc, rfl⟩ := build_eq_ok.1 hs
  exact resolved_snapshot hc

/-- A setting that depends on a later one, which depends on itself. -/
def lookingAhead : Draft :=
  let length : Setting.Descriptor := .number "Length" "" 10
  let quick : Setting.Descriptor := .boolean "Quick" "" false
  (empty "custom").add "length" (length.withCondition "quick" (.boolean false))
    |>.add "quick" (quick.withCondition "quick" (.boolean false))

/-- Two settings that depend on missing ones, behind one that does not. -/
def dangling : Draft :=
  lookingAhead.add "width" ((Setting.Descriptor.number "Width" "" 5).withCondition "axis"
      (.choice 1))
    |>.add "depth" ((Setting.Descriptor.number "Depth" "" 5).withCondition "slow" (.boolean true))

theorem build_agrees_with_keys_lookingAhead :
    lookingAhead.Resolved lookingAhead.snapshot ∧
    lookingAhead.snapshot.items.map Snapshot.Item.controller = [some 1, some 1] ∧
    dangling.build = .error (.unresolvedCondition "width" "axis") := by
  have hresolvable : ∀ e ∈ lookingAhead.entries.entries, lookingAhead.Resolvable e.2 :=
    closed_iff_resolvable.1 (by decide)
  obtain ⟨s, hs⟩ := (build_agrees_with_keys lookingAhead).1.2 hresolvable
  obtain ⟨_, rfl⟩ := build_eq_ok.1 hs
  refine ⟨(build_agrees_with_keys lookingAhead).2.2 _ hs, rfl, ?_⟩
  refine ((build_agrees_with_keys dangling).2.1 _).2
    ⟨lookingAhead.entries.entries, _, _, _, rfl, ?_, rfl, by decide, rfl⟩
  intro b hb c hc
  have hm : c.setting ∈ lookingAhead.entries.keys := hresolvable b hb c hc
  exact List.mem_append_left ["width", "depth"] hm

end Draft

end ProbeCycle
