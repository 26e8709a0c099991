import ProbeCycle.Setting.Input

namespace ProbeCycle

namespace Binary64

/-- The order of numbers as numbers; `nan` is neither below nor above anything. -/
def atMost (x y : Binary64) : Bool :=
  match x.position?, y.position? with
  | some a, some b => a ≤ b
  | _, _ => false

theorem less_eq_false {x y : Binary64} (hx : x ≠ nan) (hy : y ≠ nan) :
    x.less y = false ↔ y.atMost x = true := by
  cases x with
  | nan => exact absurd rfl hx
  | _ =>
    cases y with
    | nan => exact absurd rfl hy
    | _ => simp [less, atMost, position?]

theorem finite_ne_nan {x : Binary64} (h : x.isFinite = true) : x ≠ nan := by
  intro e
  simp [e, isFinite] at h

theorem signed_between (negative : Bool) {units limit : Nat} (h : units < limit) :
    signed true limit ≤ signed negative units ∧ signed negative units ≤ signed false limit := by
  cases negative <;> simp only [signed, Bool.false_eq_true, if_true, if_false] <;> omega

theorem infinite_atMost {x : Binary64} (h : x.isFinite = true) :
    (infinite true).atMost x = true ∧ x.atMost (infinite false) = true := by
  cases x with
  | finite negative units representable =>
    obtain ⟨hl, hu⟩ := signed_between negative representable.1
    exact ⟨decide_eq_true hl, decide_eq_true hu⟩
  | _ => simp [isFinite] at h

end Binary64

namespace Setting

open Binary64 (atMost)

/-- Only numbers can be infinite or `nan`. -/
def Value.isFinite : Value → Bool
  | .number x => x.isFinite
  | _ => true

/-- The kind of the value is that of the setting, and a number is finite. -/
def Descriptor.Accepts (d : Descriptor) (value : Value) : Prop :=
  value.kind = d.kind ∧ value.isFinite = true

instance (d : Descriptor) (value : Value) : Decidable (d.Accepts value) :=
  inferInstanceAs (Decidable (value.kind = d.kind ∧ value.isFinite = true))

theorem Descriptor.accept_eq_ok {d : Descriptor} {key : String} {value value' : Value} :
    d.accept key value = .ok value' ↔ d.Accepts value ∧ value = value' := by
  unfold accept Accepts
  by_cases hk : value.kind = d.kind
  · rw [if_neg (fun hn => hn hk)]
    cases value with
    | number x => cases hx : x.isFinite <;> simp [Value.isFinite, hk, hx]
    | _ => simp [Value.isFinite, hk]
  · rw [if_pos hk]
    simp [hk]

/-- Why a setting does not take a value. -/
inductive Descriptor.Refuses (d : Descriptor) (key : String) :
    Value → ProbeError → Prop where
  | otherKind {value : Value} (h : value.kind ≠ d.kind) :
      Refuses d key value (.kindMismatch key d.kind value.kind)
  | notFinite {x : Binary64} (hk : d.kind = .number) (hx : x.isFinite = false) :
      Refuses d key (.number x) (.invalidValue key x.text)

theorem Descriptor.accept_eq_error {d : Descriptor} {key : String} {value : Value}
    {e : ProbeError} : d.accept key value = .error e ↔ d.Refuses key value e := by
  unfold accept
  constructor
  · intro h
    split at h
    · rename_i hk
      cases h
      exact .otherKind hk
    · rename_i hk
      split at h
      · split at h
        · cases h
        · rename_i x _ hx
          cases h
          exact .notFinite (Decidable.not_not.1 hk).symm (Bool.eq_false_iff.2 hx)
      · cases h
  · intro h
    cases h with
    | otherKind hk => rw [if_pos hk]
    | notFinite hk hx => simp [Value.kind, hk, hx]

theorem Spec.kind_default (spec : Spec) : spec.default.kind = spec.kind := by
  cases spec <;> rfl

theorem Descriptor.kind_default (d : Descriptor) : d.default.kind = d.kind :=
  d.spec.kind_default

/-- A typed value is one that the setting accepts. -/
theorem Descriptor.accepts_of_parse {d : Descriptor} {key input : String} {value : Value}
    (h : d.parse key input = .ok value) : d.Accepts value := by
  unfold parse at h
  split at h
  · obtain ⟨ha, rfl⟩ := accept_eq_ok.1 h
    exact ha
  · cases h

/-- A finite number lies between the limits that are given, and a choice has an option. -/
def Spec.Admits : Spec → Value → Prop
  | .number _ lower upper _, .number x =>
    x.isFinite = true ∧ (∀ l, lower = some l → l.atMost x = true) ∧
      ∀ u, upper = some u → x.atMost u = true
  | .choice _ options, .choice index => index.toNat < options.length
  | .boolean _, .boolean _ => True
  | _, _ => False

instance (spec : Spec) (value : Value) : Decidable (spec.Admits value) :=
  match spec, value with
  | .number _ lower upper _, .number x =>
    decidable_of_iff (x.isFinite = true ∧ (∀ l ∈ lower.toList, l.atMost x = true) ∧
      ∀ u ∈ upper.toList, x.atMost u = true) (by simp [Spec.Admits, Option.mem_toList])
  | .choice _ options, .choice index =>
    inferInstanceAs (Decidable (index.toNat < options.length))
  | .boolean _, .boolean _ => inferInstanceAs (Decidable True)
  | .number .., .boolean _ | .number .., .choice _ | .choice .., .boolean _
  | .choice .., .number _ | .boolean _, .number _ | .boolean _, .choice _ =>
    inferInstanceAs (Decidable False)

/-- No limit is `nan`, so every number is on one side of it. -/
def Spec.Comparable : Spec → Prop
  | .number _ lower upper _ => lower ≠ some .nan ∧ upper ≠ some .nan
  | _ => True

instance (spec : Spec) : Decidable spec.Comparable :=
  match spec with
  | .number _ lower upper _ =>
    inferInstanceAs (Decidable (lower ≠ some .nan ∧ upper ≠ some .nan))
  | .boolean _ => inferInstanceAs (Decidable True)
  | .choice .. => inferInstanceAs (Decidable True)

private theorem limit_atMost {limit : Option Binary64} {x : Binary64}
    (hx : x.isFinite = true) :
    (limit.getD (.infinite true)).atMost x = true ↔ ∀ l, limit = some l → l.atMost x = true := by
  cases limit with
  | none => simp [Binary64.infinite_atMost hx]
  | some l => simp

private theorem atMost_limit {limit : Option Binary64} {x : Binary64}
    (hx : x.isFinite = true) :
    x.atMost (limit.getD (.infinite false)) = true ↔ ∀ u, limit = some u → x.atMost u = true := by
  cases limit with
  | none => simp [Binary64.infinite_atMost hx]
  | some u => simp

private theorem limit_ne_nan {limit : Option Binary64} {negative : Bool}
    (h : limit ≠ some .nan) : limit.getD (.infinite negative) ≠ .nan := by
  cases limit with
  | none => simp
  | some l => simpa using h

theorem Descriptor.checkBounds_eq_ok {d : Descriptor} {key : String} {value : Value}
    (ha : d.Accepts value) (hc : d.spec.Comparable) :
    d.checkBounds key value = .ok () ↔ d.spec.Admits value := by
  obtain ⟨hk, hf⟩ := ha
  unfold Descriptor.kind at hk
  unfold checkBounds
  cases hs : d.spec with
  | boolean flag => cases value <;> simp_all [Spec.kind, Value.kind, Spec.Admits]
  | number default lower upper step =>
    cases value with
    | number x =>
      have hx : x.isFinite = true := hf
      rw [hs] at hc
      have hl : x.less (lower.getD (.infinite true)) = false ↔
          ∀ l, lower = some l → l.atMost x = true :=
        (Binary64.less_eq_false (Binary64.finite_ne_nan hx) (limit_ne_nan hc.1)).trans
          (limit_atMost hx)
      have hu : (upper.getD (.infinite false)).less x = false ↔
          ∀ u, upper = some u → x.atMost u = true :=
        (Binary64.less_eq_false (limit_ne_nan hc.2) (Binary64.finite_ne_nan hx)).trans
          (atMost_limit hx)
      simp only [Spec.Admits, hx, true_and, ← hl, ← hu]
      cases x.less (lower.getD (.infinite true)) <;>
        cases (upper.getD (.infinite false)).less x <;> simp
    | _ => simp [hs, Spec.kind, Value.kind] at hk
  | choice default options =>
    cases value with
    | choice index => simp [Spec.Admits]
    | _ => simp [hs, Spec.kind, Value.kind] at hk

/-- The check tells of a wrong kind only where there is one. -/
theorem Descriptor.checkBounds_ne_kindMismatch {d : Descriptor} {key : String} {value : Value}
    (h : value.kind = d.kind) (setting : String) (expected actual : Kind) :
    d.checkBounds key value ≠ .error (.kindMismatch setting expected actual) := by
  unfold Descriptor.kind at h
  unfold checkBounds
  cases hs : d.spec with
  | boolean flag =>
    cases value <;> simp_all [Spec.kind, Value.kind]
  | number default lower upper step =>
    cases value with
    | number x =>
      dsimp only
      split <;> simp
    | _ => simp [hs, Spec.kind, Value.kind] at h
  | choice default options =>
    cases value with
    | choice index =>
      dsimp only
      split <;> simp
    | _ => simp [hs, Spec.kind, Value.kind] at h

end Setting

end ProbeCycle
