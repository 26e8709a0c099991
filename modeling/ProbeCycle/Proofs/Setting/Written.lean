import ProbeCycle.Proofs.Catalog
import ProbeCycle.Proofs.Json.Finite
import ProbeCycle.Proofs.Setting.Json

namespace ProbeCycle.Setting

namespace Spec

variable {spec : Spec} {members : List (String × Json)} {kind : Kind}

theorem isFinite_default (h : ∀ x ∈ spec.numbers, x.isFinite = true) :
    spec.default.isFinite = true := by
  cases spec with
  | number default lower upper step => exact h default (by simp [numbers])
  | _ => rfl

theorem comparable_of_isFinite (h : ∀ x ∈ spec.numbers, x.isFinite = true) :
    spec.Comparable := by
  cases spec with
  | number default lower upper step =>
    constructor
    · intro hnan
      have hfinite := h .nan (by simp [numbers, hnan])
      cases hfinite
    · intro hnan
      have hfinite := h .nan (by simp [numbers, hnan])
      cases hfinite
  | _ => trivial

theorem isFinite_of_ofMembers? (h : ofMembers? members kind = some spec) :
    ∀ x ∈ spec.numbers, x.isFinite = true := by
  cases kind with
  | boolean =>
    obtain ⟨default, _, rfl⟩ := Option.map_eq_some_iff.1 h
    simp [numbers]
  | number =>
    obtain ⟨default, hdefault, h⟩ := Option.bind_eq_some_iff.1 h
    obtain ⟨lower, hlower, h⟩ := Option.bind_eq_some_iff.1 h
    obtain ⟨upper, hupper, h⟩ := Option.bind_eq_some_iff.1 h
    obtain ⟨step, hstep, h⟩ := Option.bind_eq_some_iff.1 h
    obtain rfl := Option.some.inj h
    have hlimit : ∀ {name : String} {limit : Option Binary64},
        Json.optional? members name Json.asBinary64? = some limit →
          ∀ x ∈ limit, x.isFinite = true := by
      intro name limit hread x hx
      obtain rfl := Option.mem_def.1 hx
      obtain ⟨j, hj⟩ := Json.exists_of_optional? hread
      exact Json.isFinite_asBinary64? hj
    obtain ⟨j, hj⟩ := Json.exists_of_required? hdefault
    simp only [numbers, List.forall_mem_append, List.forall_mem_cons, Option.mem_toList]
    exact ⟨⟨⟨Json.isFinite_asBinary64? hj, hlimit hlower⟩, hlimit hupper⟩, hlimit hstep⟩
  | choice =>
    obtain ⟨default, _, h⟩ := Option.bind_eq_some_iff.1 h
    obtain ⟨options, _, h⟩ := Option.bind_eq_some_iff.1 h
    obtain rfl := Option.some.inj h
    simp [numbers]

end Spec

namespace Descriptor

variable {d : Descriptor}

theorem isFinite_of_ofJson? {j : Json} (h : ofJson? j = some d) :
    ∀ x ∈ d.spec.numbers, x.isFinite = true := by
  cases j with
  | object members =>
    simp only [ofJson?, Option.bind_eq_bind, Option.bind_eq_some_iff] at h
    obtain ⟨members, _, label, _, description, _, parameter, _, icon, _, h⟩ := h
    obtain ⟨multiplier, _, unit, _, condition, _, h⟩ := h
    split at h
    · obtain ⟨kind, _, h⟩ := Option.bind_eq_some_iff.1 h
      obtain ⟨spec, hspec, h⟩ := Option.bind_eq_some_iff.1 h
      obtain rfl := Option.some.inj h
      exact Spec.isFinite_of_ofMembers? hspec
    · cases h
  | _ => cases h

/-- A setting of the catalog, or one that some text spells as JSON. -/
inductive Written : Descriptor → Prop where
  | catalog {operation key : String} {op : Operation} {d : Descriptor}
    (hop : lookup operation = .ok op) (hd : op.settings.find? key = some d) : Written d
  | json {text : String} {d : Descriptor} (h : (Json.read? text).bind ofJson? = some d) : Written d

/-- None of the numbers of a written setting is infinite or nan, so its default can be stored. -/
theorem Written.accepts_default (h : d.Written) : d.Accepts d.default := by
  cases h with
  | catalog hop hd => exact (lookup_wellFormed hop).accepts _ (Table.find?_eq_some.1 hd)
  | json h =>
    obtain ⟨j, _, hj⟩ := Option.bind_eq_some_iff.1 h
    exact ⟨d.kind_default, Spec.isFinite_default (isFinite_of_ofJson? hj)⟩

theorem Written.comparable (h : d.Written) : d.spec.Comparable := by
  cases h with
  | catalog hop hd => exact (lookup_wellFormed hop).comparable _ (Table.find?_eq_some.1 hd)
  | json h =>
    obtain ⟨j, _, hj⟩ := Option.bind_eq_some_iff.1 h
    exact Spec.comparable_of_isFinite (isFinite_of_ofJson? hj)

end Descriptor

end ProbeCycle.Setting
