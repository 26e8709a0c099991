import ProbeCycle.Proofs.Config.File
import ProbeCycle.Proofs.Json.Record

namespace ProbeCycle

open Json (defaulted?)

namespace StoredValue

variable {stored read : StoredValue}

/-- Flags and whole numbers stay; a decimal number becomes what its literal is read as. -/
def ReadsAs : StoredValue → StoredValue → Prop
  | decimal x, decimal y => Json.asBinary64? (.ofBinary64 x) = some y
  | stored, read => stored = read

/-- Reading the literal of a decimal number gives that number. -/
def Survives : StoredValue → Prop
  | decimal x => x.Survives
  | _ => True

instance (stored : StoredValue) : Decidable stored.Survives :=
  match stored with
  | decimal x => inferInstanceAs (Decidable x.Survives)
  | boolean _ | integer _ => isTrue trivial

theorem readsAs_self : stored.ReadsAs stored ↔ stored.Survives := by
  cases stored with
  | decimal x => exact Binary64.survives_iff.symm
  | _ => exact ⟨fun _ => trivial, fun _ => rfl⟩

theorem ofJson?_ofInt (n : Int64) : ofJson? (.ofInt n.toInt) = some (integer n) := by
  change (NumberLiteral.ofInt n.toInt).value?.map ofNumber = _
  have hmax := n.toInt_lt
  have hmin := n.le_toInt
  cases h : n.toInt with
  | ofNat k =>
    have hk : k < 9223372036854775808 := by
      rw [h] at hmax
      exact Int.ofNat_lt.1 hmax
    have hn : (UInt64.ofNat k).toInt64 = n := by
      rw [UInt64.toInt64_ofNat', ← Int64.toInt_inj, Int64.toInt_ofNat_of_lt hk, h]
      rfl
    have hsize : k < UInt64.size := Nat.lt_trans hk (by decide)
    have hto : (UInt64.ofNat k).toNat = k := UInt64.toNat_ofNat_of_lt hsize
    rw [Int.ofNat_eq_natCast, NumberLiteral.value?_ofInt_natural hsize, Option.map_some, ofNumber,
      hto, if_pos (Nat.le_of_lt_succ hk), hn]
  | negSucc k =>
    have hk : k + 1 ≤ 9223372036854775808 := by
      rw [h] at hmin
      omega
    have hn : Int64.ofInt (-((k + 1 : Nat) : Int)) = n := by
      rw [Int.natCast_add_one, ← Int.negSucc_eq, ← h, Int64.ofInt_toInt]
    rw [Int.negSucc_eq, ← Int.natCast_add_one, NumberLiteral.value?_ofInt_negative (by omega) hk,
      Option.map_some, ofNumber, hn]

theorem ofJson?_ofBinary64 (x : Binary64) : ofJson? (.ofBinary64 x) =
    (Json.asBinary64? (.ofBinary64 x)).map decimal := by
  cases x with
  | finite negative units hu =>
    change (NumberLiteral.ofMagnitude negative units).value?.map ofNumber =
      ((NumberLiteral.ofMagnitude negative units).value?.map Number.toBinary64).map decimal
    cases h : (NumberLiteral.ofMagnitude negative units).value? with
    | none => rfl
    | some n =>
      obtain ⟨y, rfl⟩ := NumberLiteral.value?_of_isDecimal
        (NumberLiteral.wellFormed_ofMagnitude negative units).2 h
      rfl
  | _ => rfl

theorem ofJson?_toJson : ofJson? stored.toJson = some read ↔ stored.ReadsAs read := by
  cases stored with
  | boolean flag =>
    change some (boolean flag) = some read ↔ boolean flag = read
    rw [Option.some.injEq]
  | integer n =>
    change ofJson? (.ofInt n.toInt) = some read ↔ integer n = read
    rw [ofJson?_ofInt, Option.some.injEq]
  | decimal x =>
    change ofJson? (.ofBinary64 x) = some read ↔ _
    rw [ofJson?_ofBinary64]
    cases read <;> simp [ReadsAs]

theorem writable_toJson (stored : StoredValue) : stored.toJson.Writable := by
  cases stored with
  | boolean flag => exact .bool flag
  | integer n => exact Json.writable_ofInt _
  | decimal x => exact Json.writable_ofBinary64 x

end StoredValue

namespace Table

variable {α β : Type} {R : α → β → Prop} {s : Table α} {t : Table β}

/-- The same keys in the same order, and values that correspond. -/
def Aligned (R : α → β → Prop) (s : Table α) (t : Table β) : Prop :=
  List.Forall₂ (fun x y => x.1 = y.1 ∧ R x.2 y.2) s.entries t.entries

theorem aligned_self {R : α → α → Prop} : s.Aligned R s ↔ ∀ e ∈ s.entries, R e.2 e.2 := by
  simp [Aligned, List.forall₂_same]

theorem keys_aligned {xs : List (String × α)} {ys : List (String × β)}
    (h : List.Forall₂ (fun x y => x.1 = y.1 ∧ R x.2 y.2) xs ys) :
    xs.map Prod.fst = ys.map Prod.fst := by
  induction h with
  | nil => rfl
  | cons hxy _ ih => rw [List.map_cons, List.map_cons, hxy.1, ih]

theorem ofJson?_toJson {encode : α → Json} {decode : Json → Option β}
    (h : ∀ x y, decode (encode x) = some y ↔ R x y) :
    ofJson? decode (s.toJson encode) = some t ↔ s.Aligned R t := by
  have hentry (x : String × α) (y : String × β) :
      (do return (← (Json.Text.ofString x.1).string?, ← decode (encode x.2))) = some y ↔
        x.1 = y.1 ∧ R x.2 y.2 := by
    rw [Json.string?_ofString, ← h]
    cases decode (encode x.2) <;> simp [Prod.ext_iff]
  have hentries (entries : List (String × β)) :
      (s.entries.map fun x => (Json.Text.ofString x.1, encode x.2)).mapM
        (fun m => do return (← m.1.string?, ← decode m.2)) = some entries ↔
      List.Forall₂ (fun x y => x.1 = y.1 ∧ R x.2 y.2) s.entries entries := by
    rw [Steps.mapM_eq_some, List.forall₂_map_left_iff]
    simp only [hentry]
  change Option.bind _ _ = _ ↔ _
  rw [Option.bind_eq_some_iff]
  constructor
  · rintro ⟨entries, hread, ht⟩
    have haligned := (hentries entries).1 hread
    have he : t.entries = entries := by
      rw [← Option.some.inj ht]
      exact entries_ofList (keys_aligned haligned ▸ s.nodup)
    rwa [Aligned, he]
  · intro haligned
    exact ⟨t.entries, (hentries _).2 haligned, congrArg some (ext (entries_ofList t.nodup))⟩

theorem writable_toJson {encode : α → Json} (h : ∀ x, (encode x).Writable) :
    (s.toJson encode).Writable := by
  refine .object ?_ ?_ <;> simp only [List.forall_mem_map]
  · exact fun e _ => ⟨e.1, rfl⟩
  · exact fun e _ => h e.2

end Table

namespace Config

variable {c c' : Config} {files : FileTree} {path : String}

def Logging.fields (l : Logging) : List (String × Json) :=
  [("level", .ofString l.level), ("json", .bool l.json)]

theorem Logging.toJson_eq (l : Logging) : l.toJson = .object (Json.fields l.fields) := rfl

theorem Logging.ofJson?_toJson (l : Logging) : ofJson? l.toJson = some l := by
  have hnodup : (l.fields.map Prod.fst).Nodup := (by decide : ["level", "json"].Nodup)
  have hlevel : defaulted? l.fields "level" standard.level Json.asString? = some l.level :=
    (Json.defaulted?_eq hnodup rfl _).trans (Json.asString?_ofString _)
  have hjson : defaulted? l.fields "json" standard.json Json.asBool? = some l.json :=
    (Json.defaulted?_eq hnodup rfl _).trans (Json.asBool?_bool _)
  simp only [toJson_eq, ofJson?, Json.named?_fields, Option.bind_eq_bind, Option.bind_some, hlevel,
    hjson]
  rfl

theorem Logging.writable_toJson (l : Logging) : l.toJson.Writable := by
  have h : ∀ m ∈ l.fields, m.2.Writable := by
    simp [fields, Json.writable_ofString, Json.Writable.bool]
  exact Json.writable_fields h

def Output.fields (o : Output) : List (String × Json) :=
  [("validate_bounds", .bool o.validateBounds)]

theorem Output.toJson_eq (o : Output) : o.toJson = .object (Json.fields o.fields) := rfl

theorem Output.ofJson?_toJson (o : Output) : ofJson? o.toJson = some o := by
  have hnodup : (o.fields.map Prod.fst).Nodup := (by decide : ["validate_bounds"].Nodup)
  have hvalue : defaulted? o.fields "validate_bounds" standard.validateBounds Json.asBool? =
      some o.validateBounds :=
    (Json.defaulted?_eq hnodup rfl _).trans (Json.asBool?_bool _)
  simp only [toJson_eq, ofJson?, Json.named?_fields, Option.bind_eq_bind, Option.bind_some, hvalue]
  rfl

theorem Output.writable_toJson (o : Output) : o.toJson.Writable := by
  have h : ∀ m ∈ o.fields, m.2.Writable := by simp [fields, Json.Writable.bool]
  exact Json.writable_fields h

def fields (c : Config) : List (String × Json) :=
  [("logging", c.logging.toJson), ("output", c.output.toJson),
    ("defaults", c.defaults.toJson (Table.toJson StoredValue.toJson))]

theorem toJson_eq (c : Config) : c.toJson = .object (Json.fields c.fields) := rfl

/-- All but decimal numbers is read as it was written. -/
structure ReadsAs (c c' : Config) : Prop where
  logging : c.logging = c'.logging
  output : c.output = c'.output
  defaults : c.defaults.Aligned (Table.Aligned StoredValue.ReadsAs) c'.defaults

def Survives (c : Config) : Prop :=
  ∀ e ∈ c.defaults.entries, ∀ v ∈ e.2.entries, v.2.Survives

instance (c : Config) : Decidable c.Survives :=
  inferInstanceAs (Decidable (∀ e ∈ c.defaults.entries, ∀ v ∈ e.2.entries, v.2.Survives))

theorem readsAs_self : c.ReadsAs c ↔ c.Survives := by
  have htables : c.defaults.Aligned (Table.Aligned StoredValue.ReadsAs) c.defaults ↔
      c.Survives := by
    simp only [Table.aligned_self, StoredValue.readsAs_self, Survives]
  exact ⟨fun h => htables.1 h.defaults, fun h => ⟨rfl, rfl, htables.2 h⟩⟩

theorem ofJson?_toJson : ofJson? c.toJson = some c' ↔ c.ReadsAs c' := by
  have hnodup : (c.fields.map Prod.fst).Nodup :=
    (by decide : ["logging", "output", "defaults"].Nodup)
  have hlogging : defaulted? c.fields "logging" standard.logging Logging.ofJson? =
      some c.logging := (Json.defaulted?_eq hnodup rfl _).trans (Logging.ofJson?_toJson _)
  have houtput : defaulted? c.fields "output" standard.output Output.ofJson? =
      some c.output := (Json.defaulted?_eq hnodup rfl _).trans (Output.ofJson?_toJson _)
  have hdefaults {t : Table (Table StoredValue)} :
      defaulted? c.fields "defaults" standard.defaults defaultsOfJson? = some t ↔
        c.defaults.Aligned (Table.Aligned StoredValue.ReadsAs) t := by
    rw [Json.defaulted?_eq hnodup rfl]
    exact Table.ofJson?_toJson fun _ _ => Table.ofJson?_toJson fun _ _ => StoredValue.ofJson?_toJson
  simp only [toJson_eq, ofJson?, Json.named?_fields, Option.bind_eq_bind, Option.bind_some,
    hlogging, houtput, Option.bind_eq_some_iff, hdefaults]
  constructor
  · rintro ⟨t, ht, he⟩
    cases he
    exact ⟨rfl, rfl, ht⟩
  · rintro ⟨hl, ho, hd⟩
    refine ⟨c'.defaults, hd, ?_⟩
    rw [hl, ho]
    rfl

theorem writable_toJson (c : Config) : c.toJson.Writable := by
  have hdefaults : (c.defaults.toJson (Table.toJson StoredValue.toJson)).Writable :=
    Table.writable_toJson fun _ => Table.writable_toJson StoredValue.writable_toJson
  have h : ∀ m ∈ c.fields, m.2.Writable := by
    simp [fields, c.logging.writable_toJson, c.output.writable_toJson, hdefaults]
  exact Json.writable_fields h

theorem parse_render_json : parse .json (c.render .json) = .ok c' ↔ c.ReadsAs c' := by
  have hread : Json.read? (c.render .json) = some c.toJson :=
    Json.read?_toText c.writable_toJson .indented
  rw [parse, hread, Option.bind_some, ← ofJson?_toJson]
  cases ofJson? c.toJson <;> simp

/-- A valid configuration can be saved as JSON; what is loaded again has the same sections, keys
and forms of values, and is the same if every stored decimal number is read as it was written. -/
theorem load_save_json (hv : c.validate = .ok ()) (hs : Path.suffix? path = some "json")
    (hw : files.Writable path) : (save files path c).failure = none ∧
      (∀ c', (load (save files path c).files path).result = .ok c' ↔
        c.ReadsAs c' ∧ c'.validate = .ok ()) ∧
      ((load (save files path c).files path).result = .ok c ↔ c.Survives) := by
  obtain ⟨hsave, hload⟩ := load_save hv (Format.ofPath?_json hs) hw
  simp only [parse_render_json] at hload
  refine ⟨hsave, hload, ?_⟩
  rw [hload, readsAs_self]
  exact and_iff_left hv

theorem load_save_json_diverse :
    (diverse.validate = .ok () ∧ Path.suffix? "shop/probe.json" = some "json" ∧
      (∅ : FileTree).Writable "shop/probe.json" ∧ diverse.Survives) ∧
    (load (save ∅ "shop/probe.json" diverse).files "shop/probe.json").result = .ok diverse := by
  have hv : diverse.validate = .ok () := by decide +kernel
  have hs : Path.suffix? "shop/probe.json" = some "json" := by decide +kernel
  have hw : (∅ : FileTree).Writable "shop/probe.json" :=
    by decide +kernel
  have hsurvives : diverse.Survives := by decide +kernel
  exact ⟨⟨hv, hs, hw, hsurvives⟩, (load_save_json hv hs hw).2.2.2 hsurvives⟩

/-- A configuration that stores nothing but a decimal number. -/
def storing (x : Binary64) : Config :=
  { standard with defaults := .ofList [("bore", .ofList [("diameter", .decimal x)])] }

theorem readsAs_storing {x y : Binary64} (h : Json.asBinary64? (.ofBinary64 x) = some y) :
    (storing x).ReadsAs (storing y) :=
  ⟨rfl, rfl, .cons ⟨rfl, .cons ⟨rfl, h⟩ .nil⟩ .nil⟩

theorem load_save_json_inexact :
    (storing 96.97521431783417).validate = .ok () ∧ Path.suffix? "c.json" = some "json" ∧
      (∅ : FileTree).Writable "c.json" ∧
      (load (save ∅ "c.json" (storing 96.97521431783417)).files "c.json").result =
        .ok (storing 96.97521431783416) ∧
      (load (save ∅ "c.json" (storing 96.97521431783417)).files "c.json").result ≠
        .ok (storing 96.97521431783417) ∧
      Binary64.equal 96.97521431783416 96.97521431783417 = false := by
  have hv : (storing 96.97521431783417).validate = .ok () := by decide +kernel
  have hs : Path.suffix? "c.json" = some "json" := by decide +kernel
  have hw : (∅ : FileTree).Writable "c.json" := by decide +kernel
  have hread : Json.asBinary64? (.ofBinary64 96.97521431783417) = some 96.97521431783416 := by
    decide +kernel
  have hload : (load (save ∅ "c.json" (storing 96.97521431783417)).files "c.json").result =
      .ok (storing 96.97521431783416) :=
    ((load_save hv (Format.ofPath?_json hs) hw).2 _).2
      ⟨parse_render_json.2 (readsAs_storing hread), by decide +kernel⟩
  have hne : storing 96.97521431783416 ≠ storing 96.97521431783417 := by decide +kernel
  refine ⟨hv, hs, hw, hload, ?_, by decide +kernel⟩
  rw [hload]
  exact mt Except.ok.inj hne

end Config

end ProbeCycle
