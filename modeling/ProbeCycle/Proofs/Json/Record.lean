import ProbeCycle.Proofs.Json.Number
import ProbeCycle.Proofs.Steps
import ProbeCycle.Proofs.Table
import ProbeCycle.Setting.Json

namespace ProbeCycle.Json

variable {α : Type} {members : List (String × Json)} {name : String} {value : Json}
  {decode : Json → Option α} {encode : α → Json}

/-- Members with their names as they are written. -/
def fields (members : List (String × Json)) : List (Text × Json) :=
  members.map fun (name, value) => (.ofString name, value)

/-- A member that is left out where there is nothing to say. -/
def field (name : String) (encode : α → Json) : Option α → List (String × Json)
  | some x => [(name, encode x)]
  | none => []

theorem asString?_ofString (s : String) : asString? (.ofString s) = some s :=
  string?_ofString s

theorem asBool?_bool (flag : Bool) : asBool? (.bool flag) = some flag := rfl

theorem named?_fields (members : List (String × Json)) :
    named? (fields members) = some members :=
  Steps.mapM_map_self fun m _ => by simp [string?_ofString]

theorem fields_field (name : String) (encode : α → Json) (o : Option α) :
    fields (field name encode o) = Setting.memberOf name encode o := by
  cases o <;> rfl

theorem names_field (name : String) (encode : α → Json) (o : Option α) :
    ((field name encode o).map Prod.fst).Sublist [name] := by
  cases o with
  | none => exact List.nil_sublist _
  | some x => exact List.Sublist.refl _

theorem lookup_field (name key : String) (encode : α → Json) (o : Option α) :
    (field name encode o).lookup key = if key = name then o.map encode else none := by
  cases o with
  | none => simp [field]
  | some x =>
    by_cases h : key = name
    · simp [field, h]
    · have hb : (key == name) = false := by simpa using h
      simp [field, h, List.lookup_cons, hb]

theorem writable_ofString (s : String) : (ofString s).Writable := .string s

theorem writable_fields (h : ∀ m ∈ members, m.2.Writable) : (object (fields members)).Writable := by
  refine .object ?_ ?_
  · intro m hm
    obtain ⟨m', _, rfl⟩ := List.mem_map.1 hm
    exact ⟨m'.1, rfl⟩
  · intro m hm
    obtain ⟨m', hm', rfl⟩ := List.mem_map.1 hm
    exact h m' hm'

theorem forall_mem_field {P : Json → Prop} {o : Option α} (h : ∀ x ∈ o, P (encode x)) :
    ∀ m ∈ field name encode o, P m.2 := by
  cases o with
  | none => exact List.forall_mem_nil _
  | some x => simpa [field] using h

/-- In a record without repeated names a name picks out at most one member. -/
theorem filter_eq (h : (members.map Prod.fst).Nodup) (name : String) :
    members.filter (·.1 == name) = (members.lookup name).toList.map (name, ·) := by
  induction members with
  | nil => rfl
  | cons m rest ih =>
    obtain ⟨k, v⟩ := m
    obtain ⟨hk, hr⟩ := List.nodup_cons.1 h
    by_cases he : k = name
    · subst he
      have hnone : rest.filter (·.1 == k) = [] := by
        rw [ih hr, lookup_of_not_mem hk]
        rfl
      simp [hnone]
    · have hb : (k == name) = false := by simpa using he
      have hb' : (name == k) = false := by simpa using fun e : name = k => he e.symm
      simp only [List.filter_cons, hb, List.lookup_cons, hb', Bool.false_eq_true, if_false, ih hr]

theorem unique?_eq (h : (members.map Prod.fst).Nodup) (name : String) :
    unique? members name = some (members.lookup name) := by
  rw [unique?, filter_eq h]
  cases members.lookup name <;> rfl

/-- A member is found under its name in a record that has no name twice. -/
theorem required?_eq (h : (members.map Prod.fst).Nodup) (hl : members.lookup name = some value) :
    required? members name decode = decode value := by
  rw [required?, unique?_eq h, hl]
  rfl

theorem defaulted?_eq (h : (members.map Prod.fst).Nodup) (hl : members.lookup name = some value)
    (default : α) : defaulted? members name default decode = decode value := by
  rw [defaulted?, unique?_eq h, hl]
  rfl

/-- A member that may be left out is read as it was written. -/
theorem optional?_eq {o : Option α} (h : (members.map Prod.fst).Nodup)
    (hl : members.lookup name = o.map encode)
    (hd : ∀ x, o = some x → encode x ≠ .null ∧ decode (encode x) = some x) :
    optional? members name decode = some o := by
  rw [optional?, defaulted?, unique?_eq h, hl]
  cases o with
  | none => rfl
  | some x =>
    obtain ⟨hnull, hx⟩ := hd x rfl
    show orNull? decode (encode x) = some (some x)
    unfold orNull?
    split
    · rename_i he
      exact absurd he hnull
    · rw [hx]
      rfl

theorem optional?_ofString {o : Option String} (h : (members.map Prod.fst).Nodup)
    (hl : members.lookup name = o.map .ofString) : optional? members name asString? = some o :=
  optional?_eq h hl fun s _ => ⟨nofun, asString?_ofString s⟩

theorem optional?_ofBinary64 {o : Option Binary64} (h : (members.map Prod.fst).Nodup)
    (hl : members.lookup name = o.map .ofBinary64) (hs : ∀ x ∈ o, x.Survives) :
    optional? members name asBinary64? = some o := by
  refine optional?_eq h hl fun x hx => ⟨?_, Binary64.survives_iff.1 (hs x hx)⟩
  intro hnull
  have hread := Binary64.survives_iff.1 (hs x hx)
  rw [hnull] at hread
  cases hread

theorem isSound_ofString (s : String) (depth : Nat) : (ofString s).isSound depth = true := by
  have h := congrArg Option.isSome (string?_ofString s)
  rwa [Text.string?, Option.isSome_map] at h

theorem isSound_ofBinary64 {x : Binary64} (h : x.Survives) (depth : Nat) :
    (ofBinary64 x).isSound depth = true := by
  cases x with
  | finite negative units hu =>
    change (NumberLiteral.ofMagnitude negative units).value?.isSome = true
    rw [Binary64.value?_of_survives.1 h]
    rfl
  | _ => rfl

theorem isSound_ofInt {n : Nat} (h : n < UInt64.size) (depth : Nat) :
    (ofInt n).isSound depth = true := by
  change (NumberLiteral.ofInt n).value?.isSome = true
  rw [NumberLiteral.value?_ofInt_natural h]
  rfl

theorem areSound_iff {depth : Nat} {items : List Json} :
    areSound depth items = true ↔ ∀ item ∈ items, item.isSound depth = true := by
  induction items with
  | nil => simp [areSound]
  | cons item items ih => simp [areSound, ih]

end ProbeCycle.Json
