import ProbeCycle.Proofs.Json.Record

namespace ProbeCycle

open Json

namespace Setting

theorem Kind.ofName?_name (kind : Kind) : ofName? kind.name = some kind := by
  cases kind <;> rfl

/-- The decimal numbers that are written. -/
def Value.numbers : Value → List Binary64
  | number x => [x]
  | _ => []

theorem asIndex?_ofInt (index : UInt64) : asIndex? (.ofInt index.toNat) = some index := by
  have hnumber : asNumber? (.ofInt index.toNat) = some (.natural (.ofNat index.toNat)) :=
    NumberLiteral.value?_ofInt_natural index.toNat_lt
  rw [asIndex?, hnumber, UInt64.ofNat_toNat]

namespace Value

variable {value : Value}

/-- Only the place of an option is written without point and exponent. -/
theorem ofJson?_toJson (h : ∀ x ∈ value.numbers, x.Survives) :
    ofJson? value.toJson = some value := by
  cases value with
  | boolean flag => rfl
  | number x =>
    have hx : x.Survives := h x (List.mem_singleton.2 rfl)
    cases x with
    | finite negative units hu =>
      change (NumberLiteral.ofMagnitude negative units).value?.map ofNumber = _
      rw [Binary64.value?_of_survives.1 hx]
      rfl
    | _ => cases hx.isFinite
  | choice index =>
    change (NumberLiteral.ofInt index.toNat).value?.map ofNumber = _
    rw [NumberLiteral.value?_ofInt_natural index.toNat_lt, UInt64.ofNat_toNat]
    rfl

theorem writable_toJson (value : Value) : value.toJson.Writable := by
  cases value with
  | boolean flag => exact .bool flag
  | number x => exact writable_ofBinary64 x
  | choice index => exact writable_ofInt _

end Value

def Choice.fields (c : Choice) : List (String × Json) :=
  [("icon", .ofString c.icon), ("label", .ofString c.label)]

theorem Choice.toJson_eq (c : Choice) : c.toJson = .object (Json.fields c.fields) := rfl

theorem Choice.ofJson?_toJson (c : Choice) : ofJson? c.toJson = some c := by
  have hnodup : (c.fields.map Prod.fst).Nodup := (by decide : ["icon", "label"].Nodup)
  have hicon : required? c.fields "icon" asString? = some c.icon :=
    (required?_eq hnodup rfl).trans (asString?_ofString _)
  have hlabel : required? c.fields "label" asString? = some c.label :=
    (required?_eq hnodup rfl).trans (asString?_ofString _)
  simp only [toJson_eq, ofJson?, named?_fields, Option.bind_eq_bind, Option.bind_some, hicon,
    hlabel]
  rfl

theorem Choice.writable_toJson (c : Choice) : c.toJson.Writable := by
  have h : ∀ m ∈ c.fields, m.2.Writable := by simp [fields, writable_ofString]
  exact writable_fields h

theorem Choice.isSound_toJson (c : Choice) (depth : Nat) :
    c.toJson.isSound (depth + 1) = true := by
  have hname (name : String) : (Text.ofString name).chars?.isSome = true :=
    isSound_ofString name depth
  simp only [toJson, isSound, membersAreSound, hname, isSound_ofString, Bool.and_self]

theorem choicesOfJson?_array (options : List Choice) :
    choicesOfJson? (.array (options.map Choice.toJson)) = some options :=
  Steps.mapM_map_self fun c _ => c.ofJson?_toJson

def Condition.fields (c : Condition) : List (String × Json) :=
  [("setting", .ofString c.setting), ("value", c.value.toJson)]

theorem Condition.toJson_eq (c : Condition) : c.toJson = .object (Json.fields c.fields) := rfl

theorem Condition.ofJson?_toJson {c : Condition} (h : ∀ x ∈ c.value.numbers, x.Survives) :
    ofJson? c.toJson = some c := by
  have hnodup : (c.fields.map Prod.fst).Nodup := (by decide : ["setting", "value"].Nodup)
  have hsetting : required? c.fields "setting" asString? = some c.setting :=
    (required?_eq hnodup rfl).trans (asString?_ofString _)
  have hvalue : required? c.fields "value" Value.ofJson? = some c.value :=
    (required?_eq hnodup rfl).trans (Value.ofJson?_toJson h)
  simp only [toJson_eq, ofJson?, named?_fields, Option.bind_eq_bind, Option.bind_some, hsetting,
    hvalue]
  rfl

theorem Condition.writable_toJson (c : Condition) : c.toJson.Writable := by
  have h : ∀ m ∈ c.fields, m.2.Writable := by
    simp [fields, writable_ofString, c.value.writable_toJson]
  exact writable_fields h

namespace Spec

variable {spec : Spec}

def numbers : Spec → List Binary64
  | number default lower upper step =>
    default :: lower.toList ++ upper.toList ++ step.toList
  | _ => []

/-- The members of a spec under their names as they are written. -/
def fields (spec : Spec) : List (String × Json) :=
  ("kind", .ofString spec.kind.name) ::
  match spec with
  | boolean default => [("default", .bool default)]
  | number default lower upper step =>
    ("default", .ofBinary64 default) ::
      field "min" .ofBinary64 lower ++ field "max" .ofBinary64 upper ++
      field "step" .ofBinary64 step
  | choice default options =>
    [("default", .ofInt default.toNat), ("options", .array (options.map Choice.toJson))]

theorem members_eq (spec : Spec) : spec.members = Json.fields spec.fields := by
  cases spec with
  | number default lower upper step =>
    simp only [members, fields, Json.fields, List.map_cons, List.map_append, ← fields_field]
  | _ => rfl

/-- The names that a spec of some kind uses. -/
def fieldNames : List String := ["kind", "default", "min", "max", "step", "options"]

theorem fields_names (spec : Spec) : (spec.fields.map Prod.fst).Sublist fieldNames := by
  cases spec with
  | boolean default => exact (by decide : ["kind", "default"].Sublist fieldNames)
  | number default lower upper step =>
    have hlimits := ((names_field "min" .ofBinary64 lower).append
      (names_field "max" .ofBinary64 upper)).append (names_field "step" .ofBinary64 step)
    simp only [fields, List.map_cons, List.map_append]
    exact ((hlimits.cons_cons "default").cons_cons "kind").trans (by decide)
  | choice default options => exact (by decide : ["kind", "default", "options"].Sublist fieldNames)

theorem nodup_fields (spec : Spec) : (spec.fields.map Prod.fst).Nodup :=
  spec.fields_names.nodup (by decide)

theorem lookup_limits (default : Binary64) (lower upper step : Option Binary64) :
    let members := fields (.number default lower upper step)
    members.lookup "min" = lower.map .ofBinary64 ∧ members.lookup "max" = upper.map .ofBinary64 ∧
      members.lookup "step" = step.map .ofBinary64 := by
  simp [fields, List.lookup_append, List.lookup_cons, lookup_field]

theorem ofMembers?_fields (h : ∀ x ∈ spec.numbers, x.Survives) :
    ofMembers? spec.fields spec.kind = some spec := by
  have hnodup := spec.nodup_fields
  cases spec with
  | boolean default =>
    have hdefault : required? (fields (.boolean default)) "default" asBool? = some default :=
      (required?_eq hnodup rfl).trans (asBool?_bool default)
    simp only [kind, ofMembers?, hdefault, Option.map_some]
  | number default lower upper step =>
    simp only [numbers, List.forall_mem_append, List.forall_mem_cons, Option.mem_toList] at h
    obtain ⟨⟨⟨hdefault, hlower⟩, hupper⟩, hstep⟩ := h
    obtain ⟨hmin, hmax, hby⟩ := lookup_limits default lower upper step
    have hvalue : required? (fields (.number default lower upper step)) "default" asBinary64? =
        some default := (required?_eq hnodup rfl).trans (Binary64.survives_iff.1 hdefault)
    have hlower := optional?_ofBinary64 hnodup hmin hlower
    have hupper := optional?_ofBinary64 hnodup hmax hupper
    have hstep := optional?_ofBinary64 hnodup hby hstep
    simp only [kind, ofMembers?, hvalue, hlower, hupper, hstep, Option.bind_eq_bind,
      Option.bind_some]
    rfl
  | choice default options =>
    have hdefault : required? (fields (.choice default options)) "default" asIndex? =
        some default := (required?_eq hnodup rfl).trans (asIndex?_ofInt default)
    have hoptions : required? (fields (.choice default options)) "options" choicesOfJson? =
        some options := (required?_eq hnodup rfl).trans (choicesOfJson?_array options)
    simp only [kind, ofMembers?, hdefault, hoptions, Option.bind_eq_bind, Option.bind_some]
    rfl

/-- Members that are read in passing, before the kind is known, nest no deeper than the options of
a choice. -/
theorem isSound_fields (h : ∀ x ∈ spec.numbers, x.Survives) (depth : Nat) :
    ∀ m ∈ spec.fields, m.2.isSound (depth + 2) = true := by
  have hkind := isSound_ofString spec.kind.name (depth + 2)
  cases spec with
  | boolean default =>
    simp only [fields, List.forall_mem_cons]
    exact ⟨hkind, rfl, List.forall_mem_nil _⟩
  | number default lower upper step =>
    simp only [numbers, List.forall_mem_append, List.forall_mem_cons, Option.mem_toList] at h
    obtain ⟨⟨⟨hdefault, hlower⟩, hupper⟩, hstep⟩ := h
    have hlimit (name : String) {o : Option Binary64} (ho : ∀ x ∈ o, x.Survives) :
        ∀ m ∈ field name ofBinary64 o, m.2.isSound (depth + 2) = true :=
      forall_mem_field (P := (isSound (depth + 2) · = true)) fun x hx =>
        isSound_ofBinary64 (ho x hx) _
    simp only [fields, List.forall_mem_append, List.forall_mem_cons]
    exact ⟨hkind, ⟨⟨isSound_ofBinary64 hdefault _, hlimit _ hlower⟩, hlimit _ hupper⟩,
      hlimit _ hstep⟩
  | choice default options =>
    have hoptions : areSound (depth + 1) (options.map Choice.toJson) = true :=
      areSound_iff.2 (List.forall_mem_map.2 fun c _ => c.isSound_toJson depth)
    simp only [fields, List.forall_mem_cons]
    exact ⟨hkind, isSound_ofInt default.toNat_lt _, hoptions, List.forall_mem_nil _⟩

theorem writable_fields (spec : Spec) : ∀ m ∈ spec.fields, m.2.Writable := by
  have hkind : (ofString spec.kind.name).Writable := writable_ofString _
  cases spec with
  | boolean default =>
    simpa [fields] using And.intro hkind (Writable.bool default)
  | number default lower upper step =>
    have hlimit (name : String) (o : Option Binary64) :
        ∀ m ∈ field name ofBinary64 o, m.2.Writable :=
      forall_mem_field fun x (_ : x ∈ o) => writable_ofBinary64 x
    simp only [fields, List.forall_mem_append, List.forall_mem_cons]
    exact ⟨hkind, ⟨⟨writable_ofBinary64 default, hlimit _ _⟩, hlimit _ _⟩, hlimit _ _⟩
  | choice default options =>
    have hoptions : (array (options.map Choice.toJson)).Writable :=
      .array (List.forall_mem_map.2 fun c _ => c.writable_toJson)
    simp only [fields, List.forall_mem_cons]
    exact ⟨hkind, writable_ofInt _, hoptions, List.forall_mem_nil _⟩

end Spec

namespace Descriptor

variable {d : Descriptor}

def numbers (d : Descriptor) : List Binary64 :=
  d.multiplier :: (d.condition.map (·.value.numbers)).getD [] ++ d.spec.numbers

/-- The members of a descriptor that are not those of its spec. -/
def ownFields (d : Descriptor) : List (String × Json) :=
  [("label", .ofString d.label), ("description", .ofString d.description)] ++
    field "parameter" (fun c => .ofString (String.singleton c)) d.parameter ++
    field "icon" .ofString d.icon ++
    [("multiplier", .ofBinary64 d.multiplier)] ++
    field "unit" .ofString d.unit ++
    field "condition" Condition.toJson d.condition

theorem members_eq (d : Descriptor) :
    d.members = Json.fields (d.ownFields ++ d.spec.fields) := by
  simp only [members, ownFields, Json.fields, List.map_append, List.map_cons, List.map_nil,
    Spec.members_eq, ← fields_field]

theorem ownFields_names (d : Descriptor) :
    (d.ownFields.map Prod.fst).Sublist ownMembers := by
  simp only [ownFields, List.map_append, List.map_cons, List.map_nil]
  change List.Sublist _ (["label", "description"] ++ ["parameter"] ++ ["icon"] ++ ["multiplier"] ++
    ["unit"] ++ ["condition"])
  exact (((((List.Sublist.refl _).append (names_field _ _ _)).append (names_field _ _ _)).append
    (List.Sublist.refl _)).append (names_field _ _ _)).append (names_field _ _ _)

theorem nodup_fields (d : Descriptor) :
    ((d.ownFields ++ d.spec.fields).map Prod.fst).Nodup := by
  rw [List.map_append]
  exact (d.ownFields_names.append d.spec.fields_names).nodup (by decide)

theorem not_mem_ownMembers {name : String} (h : name ∈ d.spec.fields.map Prod.fst) :
    name ∉ ownMembers := by
  have hdisjoint : ∀ name ∈ Spec.fieldNames, name ∉ ownMembers := by decide
  exact hdisjoint name (d.spec.fields_names.subset h)

/-- The members that are not the descriptor's own are those of its spec. -/
theorem filter_fields (d : Descriptor) :
    (d.ownFields ++ d.spec.fields).filter (·.1 ∉ ownMembers) = d.spec.fields := by
  have hown : d.ownFields.filter (·.1 ∉ ownMembers) = [] := by
    refine List.filter_eq_nil_iff.2 fun m hm => ?_
    have hname := d.ownFields_names.subset (List.mem_map_of_mem hm)
    simpa using hname
  have hspec : d.spec.fields.filter (·.1 ∉ ownMembers) = d.spec.fields :=
    List.filter_eq_self.2 fun m hm => by
      simpa using not_mem_ownMembers (List.mem_map_of_mem hm)
  rw [List.filter_append, hown, hspec, List.nil_append]

theorem lookup_own {name : String} (h : name ∈ ownMembers) :
    (d.ownFields ++ d.spec.fields).lookup name = d.ownFields.lookup name := by
  have hname : name ∉ d.spec.fields.map Prod.fst := fun hm => not_mem_ownMembers hm h
  rw [List.lookup_append, lookup_of_not_mem hname, Option.or_none]

theorem lookup_ownFields (d : Descriptor) :
    d.ownFields.lookup "label" = some (.ofString d.label) ∧
      d.ownFields.lookup "description" = some (.ofString d.description) ∧
      d.ownFields.lookup "parameter" = d.parameter.map (fun c => .ofString (String.singleton c)) ∧
      d.ownFields.lookup "icon" = d.icon.map .ofString ∧
      d.ownFields.lookup "multiplier" = some (.ofBinary64 d.multiplier) ∧
      d.ownFields.lookup "unit" = d.unit.map .ofString ∧
      d.ownFields.lookup "condition" = d.condition.map Condition.toJson := by
  simp [ownFields, List.lookup_append, List.lookup_cons, lookup_field]

theorem asChar?_singleton (c : Char) : asChar? (.ofString (String.singleton c)) = some c := by
  rw [asChar?, asString?_ofString, Option.map_some, String.toList_singleton]

theorem kindOfJson?_name (kind : Kind) : kindOfJson? (.ofString kind.name) = some kind := by
  change (Text.ofString kind.name).string?.bind Kind.ofName? = _
  rw [string?_ofString, Option.bind_some, Kind.ofName?_name]

theorem ofJson?_toJson (h : ∀ x ∈ d.numbers, x.Survives) : ofJson? d.toJson = some d := by
  -- No name comes twice, so every member is read where it is looked up: those of the descriptor
  -- among its own fields, those of the spec in what is left when these are taken away.
  have hnodup := d.nodup_fields
  simp only [numbers, List.cons_append, List.forall_mem_cons, List.forall_mem_append] at h
  obtain ⟨hmultiplier, hcondition, hspec⟩ := h
  have hown {name : String} {o : Option Json} (hname : name ∈ ownMembers)
      (ho : d.ownFields.lookup name = o) : (d.ownFields ++ d.spec.fields).lookup name = o :=
    (lookup_own hname).trans ho
  obtain ⟨hlabel, hdescription, hparameter, hicon, hby, hunit, hif⟩ := d.lookup_ownFields
  have hlabel := (required?_eq hnodup (hown (by decide) hlabel)).trans (asString?_ofString _)
  have hdescription :=
    (required?_eq hnodup (hown (by decide) hdescription)).trans (asString?_ofString _)
  have hparameter := optional?_eq hnodup (hown (by decide) hparameter) fun c _ =>
    ⟨nofun, asChar?_singleton c⟩
  have hicon := optional?_ofString hnodup (hown (by decide) hicon)
  have hby := (defaulted?_eq hnodup (hown (by decide) hby) 1).trans
    (Binary64.survives_iff.1 hmultiplier)
  have hunit := optional?_ofString hnodup (hown (by decide) hunit)
  have hif : optional? (d.ownFields ++ d.spec.fields) "condition" Condition.ofJson? =
      some d.condition := by
    refine optional?_eq hnodup (hown (by decide) hif) fun c hc => ⟨nofun, ?_⟩
    rw [hc] at hcondition
    exact Condition.ofJson?_toJson hcondition
  have hkind : required? d.spec.fields "kind" kindOfJson? = some d.spec.kind :=
    (required?_eq d.spec.nodup_fields rfl).trans (kindOfJson?_name _)
  have hsound : d.spec.fields.all (·.2.isSound (Spec.depthLimit - 1)) = true :=
    List.all_eq_true.2 (Spec.isSound_fields hspec 124)
  simp only [toJson, members_eq, ofJson?, named?_fields, Option.bind_eq_bind, Option.bind_some,
    hlabel, hdescription, hparameter, hicon, hby, hunit, hif, filter_fields, hsound, if_true, hkind,
    Spec.ofMembers?_fields hspec]
  rfl

theorem writable_toJson (d : Descriptor) : d.toJson.Writable := by
  rw [toJson, members_eq]
  refine Json.writable_fields ?_
  have hparameter : ∀ m ∈ field "parameter" (fun c => ofString (String.singleton c)) d.parameter,
      m.2.Writable := forall_mem_field fun c (_ : c ∈ d.parameter) => writable_ofString _
  have htext (name : String) (o : Option String) : ∀ m ∈ field name ofString o, m.2.Writable :=
    forall_mem_field fun s (_ : s ∈ o) => writable_ofString s
  have hcondition : ∀ m ∈ field "condition" Condition.toJson d.condition, m.2.Writable :=
    forall_mem_field fun c (_ : c ∈ d.condition) => c.writable_toJson
  simp only [ownFields, List.forall_mem_append, List.forall_mem_cons]
  exact ⟨⟨⟨⟨⟨⟨⟨writable_ofString _, writable_ofString _, List.forall_mem_nil _⟩, hparameter⟩,
    htext _ _⟩, writable_ofBinary64 _, List.forall_mem_nil _⟩, htext _ _⟩, hcondition⟩,
    d.spec.writable_fields⟩

/-- A descriptor whose decimal numbers can be written and read is itself read as it was written:
every member, absent or there, and the kind of every value. -/
theorem ofJson?_of_toText (layout : Layout) (h : ∀ x ∈ d.numbers, x.Survives) :
    (Json.read? (d.toJson.toText layout)).bind ofJson? = some d := by
  rw [read?_toText d.writable_toJson, Option.bind_some, ofJson?_toJson h]

/-- The number one in a condition is not taken for the option at place one, and limits may be given
in part. -/
theorem ofJson?_of_toText_partLimits :
    let depth := { (Spec.number (-0) none (some 12) (some 0.1)).describe "Depth" "\"how\"\n" with
      parameter := some 'Z', multiplier := 2.5, condition := some ⟨"mode", .number 1⟩ }
    (∀ x ∈ depth.numbers, x.Survives) ∧
      (Json.read? (depth.toJson.toText .compact)).bind ofJson? = some depth := by
  intro depth
  have h : ∀ x ∈ depth.numbers, x.Survives := by decide +kernel
  exact ⟨h, ofJson?_of_toText .compact h⟩

end Descriptor

end Setting

end ProbeCycle
