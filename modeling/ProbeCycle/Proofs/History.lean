import ProbeCycle.Proofs.Change
import ProbeCycle.Proofs.Limits

namespace ProbeCycle

open Setting (Descriptor Value)

theorem Snapshot.checkBounds_ne_kindMismatch {s : Snapshot}
    (h : ∀ item ∈ s.items, item.value.kind = item.descriptor.kind) (setting : String)
    (expected actual : Setting.Kind) :
    s.checkBounds ≠ .error (.kindMismatch setting expected actual) := by
  intro he
  obtain ⟨item, hi, _, hitem⟩ := exists_of_checkBounds_eq_error he
  exact Setting.Descriptor.checkBounds_ne_kindMismatch (h item hi) setting expected actual hitem

namespace Draft

variable {draft later : Draft} {key : String} {value : Value} {change : Change}

def undergo (draft : Draft) (changes : List Change) : Draft :=
  changes.foldl after draft

/-- Every setting holds a value of its own kind. -/
def Kinded (draft : Draft) : Prop :=
  ∀ key entry, draft.entries.find? key = some entry → entry.value.kind = entry.descriptor.kind

theorem stable_kinded : Stable fun entry => entry.value.kind = entry.descriptor.kind :=
  fun _ _ _ _ ha => ha.1

theorem All.undergo {P : Entry → Prop} (hstable : Stable P) (h : draft.All P)
    {changes : List Change}
    (hputs : ∀ change ∈ changes, ∀ key entry, change.Puts key entry → P entry) :
    (draft.undergo changes).All P := by
  induction changes generalizing draft with
  | nil => exact h
  | cons change rest ih =>
    obtain ⟨hchange, hrest⟩ := List.forall_mem_cons.1 hputs
    exact ih (h.after hstable hchange) hrest

theorem Writes.keys (h : draft.Writes later) : later.entries.keys = draft.entries.keys := by
  obtain ⟨written, rfl, _⟩ := h
  rw [← keys_schema, schema_writeAll, keys_schema]

/-- The keys of a draft are those that were inserted, each where it first came. -/
structure Tracks (draft : Draft) (inserted : List String) : Prop where
  keys : draft.entries.keys = inserted.eraseDups
  kinded : draft.Kinded

theorem Tracks.start (name : String) : (empty name).Tracks [] where
  keys := rfl
  kinded := by
    intro key entry h
    cases h

private theorem keys_insert_eraseDups {t : Table Entry} {inserted : List String}
    (h : t.keys = inserted.eraseDups) (key : String) (entry : Entry) :
    (t.insert key entry).keys = (inserted ++ [key]).eraseDups := by
  rw [Table.keys_insert, List.eraseDups_append, h]
  by_cases hm : key ∈ inserted
  · simp [hm, List.removeAll]
  · simp [hm, List.removeAll, List.eraseDups_cons]

theorem Tracks.after {inserted : List String} (h : draft.Tracks inserted) (change : Change) :
    (draft.after change).Tracks (inserted ++ change.inserted) where
  keys := by
    rcases after_cases draft change with ⟨key, entry, hput, hafter⟩ | ⟨hkeys, hwrites⟩
    · rw [hput.inserted, hafter]
      exact keys_insert_eraseDups h.keys key entry
    · rw [hkeys, List.append_nil]
      exact hwrites.keys.trans h.keys
  kinded := All.after stable_kinded h.kinded fun _ _ hput => hput.kind

theorem Tracks.undergo {inserted : List String} (h : draft.Tracks inserted)
    (changes : List Change) :
    (draft.undergo changes).Tracks (inserted ++ changes.flatMap Change.inserted) := by
  induction changes generalizing draft inserted with
  | nil => simpa [Draft.undergo] using h
  | cons change rest ih =>
    rw [List.flatMap_cons, ← List.append_assoc]
    exact ih (h.after change)

/-- What a draft is made from. -/
inductive Origin where
  | empty (name : String)
  | operation (op : Operation)

def Origin.start : Origin → Draft
  | .empty name => Draft.empty name
  | .operation op => ofOperation op

def Origin.keys : Origin → List String
  | .empty _ => []
  | .operation op => op.settings.keys

/-- The changes by which an empty draft gets the settings of an origin. -/
def Origin.changes : Origin → List Change
  | .empty _ => []
  | .operation op => op.settings.entries.map fun e => .add e.1 e.2

def Origin.name : Origin → String
  | .empty name => name
  | .operation op => op.key

theorem Origin.start_eq (origin : Origin) :
    origin.start = (Draft.empty origin.name).undergo origin.changes := by
  cases origin with
  | empty name => rfl
  | operation op =>
    rw [changes, Draft.undergo, List.foldl_map]
    rfl

theorem Tracks.origin (origin : Origin) : origin.start.Tracks origin.keys := by
  have hkeys : origin.changes.flatMap Change.inserted = origin.keys := by
    cases origin with
    | empty name => rfl
    | operation op =>
      rw [Origin.changes, List.flatMap_map, Origin.keys, Table.keys, List.map_eq_flatMap]
      rfl
  have h := (Tracks.start origin.name).undergo origin.changes
  rwa [List.nil_append, hkeys, ← origin.start_eq] at h

/-- Nothing but the value of one setting differs. -/
structure SameBut (key : String) (draft later : Draft) : Prop where
  operation : later.operation = draft.operation
  schema : later.schema = draft.schema
  others : ∀ k, k ≠ key → later.entries.find? k = draft.entries.find? k

theorem sameBut_write (draft : Draft) (key : String) (value : Value) :
    SameBut key draft (draft.write key value) where
  operation := operation_write draft key value
  schema := schema_write draft key value
  others := by
    intro k hk
    simp [find?_write, hk]

theorem value?_write_self (h : draft.Takes key value) :
    (draft.write key value).value? key = some value := by
  obtain ⟨d, hd, _⟩ := h
  obtain ⟨entry, he, _⟩ := Option.map_eq_some_iff.1 hd
  rw [value?_write, value?, he]
  simp

theorem run_guarded (h : change.Guarded) (draft : Draft) :
    ∃ r, change.work.run draft = Work.ending draft r := by
  cases h with
  | addWith key d value => exact ⟨_, Work.run_addWith key d value⟩
  | set key value => exact ⟨_, Work.run_set key value⟩
  | setText key input => exact ⟨_, Work.run_setText key input⟩

theorem eq_of_run_error (h : change.Guarded) {e : ConfigError}
    (hrun : change.work.run draft = .error e later) : later = draft := by
  obtain ⟨r, hr⟩ := run_guarded h draft
  rw [hr] at hrun
  cases r with
  | ok later => cases hrun
  | error cause =>
    cases hrun
    rfl

/-- What a snapshot gets from its draft. -/
theorem Tracks.build {inserted : List String} {s : Snapshot} (h : draft.Tracks inserted)
    (hs : draft.build = .ok s) : s.items.map Snapshot.Item.key = inserted.eraseDups ∧
      ∀ item ∈ s.items, item.value.kind = item.descriptor.kind := by
  obtain ⟨_, rfl⟩ := build_eq_ok.1 hs
  constructor
  · rw [← h.keys, snapshot, List.map_map]
    rfl
  · intro item hi
    obtain ⟨e, he, rfl⟩ := List.mem_map.1 hi
    exact h.kinded e.1 e.2 (Table.find?_eq_some.2 he)

theorem run_set_ok (hrun : (Work.set key value).run draft = .ok () later) :
    SameBut key draft later ∧ later.value? key = some value := by
  rw [Work.run_set, Work.ending_eq_ok] at hrun
  obtain ⟨htakes, rfl⟩ := set_eq_ok.1 hrun
  exact ⟨sameBut_write draft key value, value?_write_self htakes⟩

theorem run_setText_ok {input : String}
    (hrun : (Work.setText key input).run draft = .ok () later) :
    SameBut key draft later ∧ ∃ d value, draft.descriptor? key = some d ∧
      d.parse key input = .ok value ∧ later.value? key = some value := by
  rw [Work.run_setText, Work.ending_eq_ok] at hrun
  obtain ⟨d, value, hd, hparse, rfl⟩ := setText_eq_ok.1 hrun
  have htakes : draft.Takes key value := ⟨d, hd, Descriptor.accepts_of_parse hparse⟩
  exact ⟨sameBut_write draft key value, d, value, hd, hparse, value?_write_self htakes⟩

/-- Whatever is done to a draft, its keys stand in the order in which they first came, none of
them twice, and its values are of the kinds of their settings, so that a snapshot of it never
fails the check of its limits for a wrong kind. -/
theorem undergo_keeps_order_and_kinds (origin : Origin) (changes : List Change) :
    let inserted := origin.keys ++ changes.flatMap Change.inserted
    let draft := origin.start.undergo changes
    draft.entries.keys.Nodup ∧
    draft.entries.keys = inserted.eraseDups ∧
    (∀ more, draft.entries.keys <+: (draft.undergo more).entries.keys) ∧
    draft.Kinded ∧
    (∀ change : Change, change.Guarded → ∀ e later,
      change.work.run draft = .error e later → later = draft) ∧
    (∀ key value later, (Work.set key value).run draft = .ok () later →
      SameBut key draft later ∧ later.value? key = some value) ∧
    (∀ key input later, (Work.setText key input).run draft = .ok () later →
      SameBut key draft later ∧ ∃ d value, draft.descriptor? key = some d ∧
        d.parse key input = .ok value ∧ later.value? key = some value) ∧
    ∀ s, draft.build = .ok s → s.items.map Snapshot.Item.key = inserted.eraseDups ∧
      ∀ setting expected actual,
        s.checkBounds ≠ .error (.kindMismatch setting expected actual) := by
  intro inserted draft
  have h : draft.Tracks inserted := (Tracks.origin origin).undergo changes
  refine ⟨draft.entries.nodup, h.keys, ?_, h.kinded, ?_, ?_, ?_, ?_⟩
  · intro more
    rw [(h.undergo more).keys, List.eraseDups_append, h.keys]
    exact List.prefix_append _ _
  · intro change hg e later hrun
    exact eq_of_run_error hg hrun
  · intro key value later hrun
    exact run_set_ok hrun
  · intro key input later hrun
    exact run_setText_ok hrun
  · intro s hs
    obtain ⟨hkeys, hkinds⟩ := h.build hs
    exact ⟨hkeys, Snapshot.checkBounds_ne_kindMismatch hkinds⟩

/-- A number gives way to a choice under the same key; two changes in between fail. -/
def replaced : List Change :=
  [.add "depth" (.number "Depth" "" 5), .addWith "quick" (.boolean "Quick" "" false) (.choice 1),
    .set "depth" (.boolean true), .add "quick" (.boolean "Quick" "" true),
    .add "depth" (.choice "Depth" "" 1 [⟨"Shallow", ""⟩, ⟨"Deep", ""⟩])]

theorem undergo_keeps_order_and_kinds_replaced :
    (((Draft.empty "custom").undergo replaced).entries.keys = ["depth", "quick"]) ∧
    ((Draft.empty "custom").undergo replaced).Kinded ∧
    ((Draft.empty "custom").undergo replaced).value? "depth" = some (.choice 1) := by
  obtain ⟨_, hkeys, _, hkinds, _⟩ := undergo_keeps_order_and_kinds (.empty "custom") replaced
  exact ⟨hkeys.trans (by decide +kernel), hkinds, by decide +kernel⟩

end Draft

end ProbeCycle
