import ProbeCycle.Proofs.History
import ProbeCycle.Proofs.Setting.Written

namespace ProbeCycle

open Setting (Descriptor Value)

namespace Setting

variable {d : Descriptor} {spec : Spec} {key : String} {value : Value} {e : ProbeError}
  {default : Binary64} {lower upper step : Option Binary64} {place : UInt64}
  {options : List Choice}

/-- The values that a setting is meant for: numbers between the limits that are given, and the
places of its options. -/
def Spec.Domain : Spec → Value → Prop
  | .number _ lower upper _, .number x =>
    (∀ l, lower = some l → l.atMost x = true) ∧ ∀ u, upper = some u → x.atMost u = true
  | .choice _ options, .choice index => index.toNat < options.length
  | .boolean _, .boolean _ => True
  | _, _ => False

theorem Spec.admits_iff (h : value.isFinite = true) : spec.Admits value ↔ spec.Domain value := by
  cases spec with
  | number default lower upper step =>
    cases value with
    | number x => exact and_iff_right h
    | _ => rfl
  | _ => cases value <;> rfl

/-- The answer to a value outside the domain. A limit that is not given stands at infinity. -/
inductive Descriptor.Oversteps (d : Descriptor) (key : String) : Value → ProbeError → Prop where
  | range {default x : Binary64} {lower upper step : Option Binary64}
    (hspec : d.spec = .number default lower upper step)
    (hout : ¬ d.spec.Domain (.number x)) :
    Oversteps d key (.number x)
      (.outOfRange key x (lower.getD (.infinite true)) (upper.getD (.infinite false)))
  | option {place index : UInt64} {options : List Choice}
    (hspec : d.spec = .choice place options) (hout : ¬ d.spec.Domain (.choice index)) :
    Oversteps d key (.choice index) (.noSuchOption key index options.length)

theorem Descriptor.checkBounds_number (hspec : d.spec = .number default lower upper step)
    (key : String) (x : Binary64) :
    d.checkBounds key (.number x) = .ok () ∨ d.checkBounds key (.number x) =
      .error (.outOfRange key x (lower.getD (.infinite true)) (upper.getD (.infinite false))) := by
  unfold checkBounds
  rw [hspec]
  dsimp only
  split
  · exact Or.inr rfl
  · exact Or.inl rfl

theorem Descriptor.checkBounds_choice (hspec : d.spec = .choice place options) (key : String)
    (index : UInt64) :
    d.checkBounds key (.choice index) = .ok () ∨
      d.checkBounds key (.choice index) = .error (.noSuchOption key index options.length) := by
  unfold checkBounds
  rw [hspec]
  dsimp only
  split
  · exact Or.inr rfl
  · exact Or.inl rfl

theorem Descriptor.checkBounds_eq_ok_domain (ha : d.Accepts value) (hc : d.spec.Comparable) :
    d.checkBounds key value = .ok () ↔ d.spec.Domain value :=
  (checkBounds_eq_ok ha hc).trans (Spec.admits_iff ha.2)

theorem Descriptor.checkBounds_eq_error (ha : d.Accepts value) (hc : d.spec.Comparable) :
    d.checkBounds key value = .error e ↔ d.Oversteps key value e := by
  have hok : d.checkBounds key value = .ok () ↔ d.spec.Domain value :=
    checkBounds_eq_ok_domain ha hc
  constructor
  · intro he
    have hout : ¬ d.spec.Domain value := by
      intro hin
      rw [hok.2 hin] at he
      cases he
    have hkind := ha.1
    -- The spec is of the kind of the value, which leaves one error to each kind.
    cases value with
    | boolean flag =>
      cases hspec : d.spec with
      | boolean default =>
        rw [hspec] at hout
        exact absurd trivial hout
      | _ => simp [Descriptor.kind, hspec, Spec.kind, Value.kind] at hkind
    | number x =>
      cases hspec : d.spec with
      | number default lower upper step =>
        rcases checkBounds_number hspec key x with h | h
        · exact absurd (hok.1 h) hout
        · obtain rfl := Except.error.inj (he.symm.trans h)
          exact .range hspec hout
      | _ => simp [Descriptor.kind, hspec, Spec.kind, Value.kind] at hkind
    | choice index =>
      cases hspec : d.spec with
      | choice place options =>
        rcases checkBounds_choice hspec key index with h | h
        · exact absurd (hok.1 h) hout
        · obtain rfl := Except.error.inj (he.symm.trans h)
          exact .option hspec hout
      | _ => simp [Descriptor.kind, hspec, Spec.kind, Value.kind] at hkind
  · intro h
    cases h with
    | range hspec hout =>
      exact (checkBounds_number hspec key _).resolve_left fun h => hout (hok.1 h)
    | option hspec hout =>
      exact (checkBounds_choice hspec key _).resolve_left fun h => hout (hok.1 h)

end Setting

namespace Snapshot

variable {s : Snapshot} {e : ProbeError}

theorem checkBounds_eq_ok_domain (h : s.Checkable) : s.checkBounds = .ok () ↔
    ∀ item ∈ s.items, s.includes item = true → item.descriptor.spec.Domain item.value := by
  rw [checkBounds_eq_ok h]
  apply forall₂_congr
  intro item hi
  rw [Setting.Spec.admits_iff (h item hi).1.2]

theorem checkBounds_eq_first_error (h : s.Checkable) : s.checkBounds = .error e ↔
    ∃ before item after, s.items = before ++ item :: after ∧ s.includes item = true ∧
      (∀ earlier ∈ before, s.includes earlier = true →
        earlier.descriptor.spec.Domain earlier.value) ∧
      item.descriptor.Oversteps item.key item.value e := by
  rw [checkBounds, Steps.forM_filter_eq_error]
  refine exists_congr fun before => exists_congr fun item => exists_congr fun after => ?_
  apply and_congr_right
  intro hsplit
  have hmem : ∀ i ∈ before ++ item :: after, i ∈ s.items := by
    rw [hsplit]
    exact fun i hi => hi
  have hitem := h item (hmem item (by simp))
  have hbefore : (∀ earlier ∈ before, s.includes earlier = true →
      earlier.descriptor.checkBounds earlier.key earlier.value = .ok ()) ↔
      ∀ earlier ∈ before, s.includes earlier = true →
        earlier.descriptor.spec.Domain earlier.value := by
    apply forall₂_congr
    intro earlier hm
    have hearlier := h earlier (hmem earlier (by simp [hm]))
    rw [Descriptor.checkBounds_eq_ok_domain hearlier.1 hearlier.2]
  rw [hbefore, Descriptor.checkBounds_eq_error hitem.1 hitem.2]

end Snapshot

/-- The settings of a change, which only those that put one in have. -/
def Change.descriptor? : Change → Option Descriptor
  | .add _ descriptor => some descriptor
  | .addWith _ descriptor _ => some descriptor
  | _ => none

namespace Draft

variable {draft : Draft} {s : Snapshot}

def Origin.descriptors : Origin → List Descriptor
  | .empty _ => []
  | .operation op => op.settings.entries.map Prod.snd

/-- The value can be compared with the limits of its setting. -/
def Entry.Checkable (entry : Entry) : Prop :=
  entry.descriptor.Accepts entry.value ∧ entry.descriptor.spec.Comparable

theorem stable_checkable : Stable Entry.Checkable :=
  fun _ _ _ h ha => ⟨ha, h.2⟩

theorem checkable_of_puts {change : Change} {key : String} {entry : Entry}
    (hwritten : ∀ d ∈ change.descriptor?, d.Written) (h : change.Puts key entry) :
    entry.Checkable := by
  cases h with
  | add _ d =>
    have hd := hwritten d rfl
    exact ⟨hd.accepts_default, hd.comparable⟩
  | addWith _ accepts => exact ⟨accepts, (hwritten _ rfl).comparable⟩

theorem checkable_undergo {changes : List Change}
    (hwritten : ∀ d ∈ changes.filterMap Change.descriptor?, d.Written)
    (h : draft.All Entry.Checkable) : (draft.undergo changes).All Entry.Checkable := by
  apply h.undergo stable_checkable
  intro change hchange key entry hput
  refine checkable_of_puts ?_ hput
  intro d hd
  exact hwritten d (List.mem_filterMap.2 ⟨change, hchange, hd⟩)

/-- What is true of every setting of an origin with its default is true of the whole draft. -/
theorem Origin.all_start {P : Entry → Prop} {origin : Origin} (hstable : Stable P)
    (h : ∀ d ∈ origin.descriptors, P ⟨d, d.default⟩) : origin.start.All P := by
  rw [origin.start_eq]
  refine All.undergo hstable (fun _ _ hentry => by cases hentry) ?_
  intro change hchange key entry hput
  cases origin with
  | empty name => cases hchange
  | operation op =>
    obtain ⟨setting, hsetting, rfl⟩ := List.mem_map.1 hchange
    cases hput
    exact h _ (List.mem_map.2 ⟨setting, hsetting, rfl⟩)

theorem Origin.checkable (origin : Origin) (hwritten : ∀ d ∈ origin.descriptors, d.Written) :
    origin.start.All Entry.Checkable :=
  all_start stable_checkable fun d hd =>
    ⟨(hwritten d hd).accepts_default, (hwritten d hd).comparable⟩

theorem Origin.written {key : String} {op : Operation} (h : lookup key = .ok op) :
    ∀ d ∈ (Origin.operation op).descriptors, d.Written := by
  intro d hd
  obtain ⟨e, he, rfl⟩ := List.mem_map.1 hd
  exact .catalog h (Table.find?_eq_some.2 he)

theorem All.of_mem_items {P : Entry → Prop} (h : draft.All P) (hs : draft.build = .ok s)
    {item : Snapshot.Item} (hi : item ∈ s.items) : P ⟨item.descriptor, item.value⟩ := by
  obtain ⟨_, rfl⟩ := build_eq_ok.1 hs
  obtain ⟨e, he, rfl⟩ := List.mem_map.1 hi
  exact h e.1 e.2 (Table.find?_eq_some.2 he)

theorem All.checkable (h : draft.All Entry.Checkable) (hs : draft.build = .ok s) :
    s.Checkable :=
  fun _ hi => h.of_mem_items hs hi

/-- Whatever is done to a draft with written settings, the check of its limits passes if and only if
all visible settings are in their domains, and otherwise it tells of the first one that is not. -/
theorem checkBounds_exact (origin : Origin) (changes : List Change)
    (hwritten : ∀ d ∈ origin.descriptors ++ changes.filterMap Change.descriptor?, d.Written)
    (s : Snapshot) (hbuild : (origin.start.undergo changes).build = .ok s) :
    (s.checkBounds = .ok () ↔
      ∀ item ∈ s.items, s.includes item = true → item.descriptor.spec.Domain item.value) ∧
    ∀ e, s.checkBounds = .error e ↔ ∃ before item after, s.items = before ++ item :: after ∧
      s.includes item = true ∧
      (∀ earlier ∈ before, s.includes earlier = true →
        earlier.descriptor.spec.Domain earlier.value) ∧
      item.descriptor.Oversteps item.key item.value e := by
  obtain ⟨horigin, hchanges⟩ := List.forall_mem_append.1 hwritten
  have h : s.Checkable := (checkable_undergo hchanges (origin.checkable horigin)).checkable hbuild
  exact ⟨Snapshot.checkBounds_eq_ok_domain h, fun _ => Snapshot.checkBounds_eq_first_error h⟩

/-- A choice whose default is not among its options. -/
def tool : Descriptor :=
  .choice "Tool" "" 2 [⟨"", "Left"⟩, ⟨"", "Right"⟩]

/-- A hidden clearance and two visible settings are outside their domains. -/
def overstepped : List Change :=
  [.set "edge_clearance" (.number 60), .setText "depth" "-0.5", .add "tool" tool]

theorem checkBounds_exact_overstepped :
    let s := ((Origin.operation Catalog.pocket).start.undergo overstepped).snapshot
    s.checkBounds = .error (.outOfRange "depth" (-0.5) 0 20) ∧
    ∃ before item after, s.items = before ++ item :: after ∧ s.includes item = true ∧
      (∀ earlier ∈ before, s.includes earlier = true →
        earlier.descriptor.spec.Domain earlier.value) ∧
      item.descriptor.Oversteps item.key item.value (.outOfRange "depth" (-0.5) 0 20) := by
  intro s
  have htool : ∀ x ∈ tool.numbers, x.Survives := by decide +kernel
  have hchanges : ∀ d ∈ overstepped.filterMap Change.descriptor?, d.Written := by
    intro d hd
    obtain rfl : d = tool := List.mem_singleton.1 hd
    exact .json (Descriptor.ofJson?_of_toText .compact htool)
  have horigin := Origin.written (rfl : lookup "pocket" = .ok Catalog.pocket)
  have hbuild := build_eq_ok.2 ⟨(by decide +kernel : Setting.Closed
    ((Origin.operation Catalog.pocket).start.undergo overstepped).schema), rfl⟩
  have herror : s.checkBounds = .error (.outOfRange "depth" (-0.5) 0 20) := by decide +kernel
  have hexact := checkBounds_exact (.operation Catalog.pocket) overstepped
    (List.forall_mem_append.2 ⟨horigin, hchanges⟩) s hbuild
  exact ⟨herror, (hexact.2 _).1 herror⟩

end Draft

end ProbeCycle
