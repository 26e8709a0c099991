import ProbeCycle.Catalog.Standard
import ProbeCycle.Proofs.Setting
import ProbeCycle.Proofs.Table

namespace ProbeCycle

open Setting (Descriptor)

/-- Every condition depends on one of the settings. -/
def Setting.Closed (settings : List (String × Descriptor)) : Prop :=
  ∀ e ∈ settings, ∀ c, e.2.condition = some c → c.setting ∈ settings.map Prod.fst

instance (settings : List (String × Descriptor)) : Decidable (Setting.Closed settings) :=
  decidable_of_iff
    (∀ e ∈ settings, ∀ c ∈ e.2.condition.toList, c.setting ∈ settings.map Prod.fst)
    (by simp [Setting.Closed, Option.mem_toList])

/-- Conditions depend on settings that are there, defaults can be stored, and limits are numbers. -/
structure Operation.WellFormed (op : Operation) : Prop where
  closed : Setting.Closed op.settings.entries
  accepts : ∀ e ∈ op.settings.entries, e.2.Accepts e.2.default
  comparable : ∀ e ∈ op.settings.entries, e.2.spec.Comparable

instance (op : Operation) : Decidable op.WellFormed :=
  decidable_of_iff
    (Setting.Closed op.settings.entries ∧
      (∀ e ∈ op.settings.entries, e.2.Accepts e.2.default) ∧
      ∀ e ∈ op.settings.entries, e.2.spec.Comparable)
    ⟨fun h => ⟨h.1, h.2.1, h.2.2⟩, fun h => ⟨h.closed, h.accepts, h.comparable⟩⟩

namespace Catalog

theorem lookup_eq_ok {c : Catalog} {key : String} {op : Operation} :
    c.lookup key = .ok op ↔ c.operations.find? key = some op := by
  unfold lookup
  split
  · rename_i op' h
    simp [h]
  · rename_i h
    simp [h]

private theorem standard_wellFormed :
    ∀ e ∈ standard.operations.entries, e.2.key = e.1 ∧ e.2.WellFormed := by
  decide +kernel

end Catalog

theorem lookup_eq_error {key : String} {e : ProbeError} : lookup key = .error e ↔
    (∀ op, lookup key ≠ .ok op) ∧ e = .unknownOperation key := by
  unfold lookup Catalog.lookup
  cases Catalog.standard.operations.find? key <;> simp [eq_comm]

theorem lookup_key {key : String} {op : Operation} (h : lookup key = .ok op) : op.key = key :=
  (Catalog.standard_wellFormed _ (Table.find?_eq_some.1 (Catalog.lookup_eq_ok.1 h))).1

theorem lookup_wellFormed {key : String} {op : Operation} (h : lookup key = .ok op) :
    op.WellFormed :=
  (Catalog.standard_wellFormed _ (Table.find?_eq_some.1 (Catalog.lookup_eq_ok.1 h))).2

end ProbeCycle
