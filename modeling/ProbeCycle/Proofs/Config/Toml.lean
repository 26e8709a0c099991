import ProbeCycle.Proofs.Config.File
import ProbeCycle.Proofs.Toml.Tables

namespace ProbeCycle

open Setting (Descriptor)

variable {α : Type}

theorem StoredValue.ofToml?_toToml (stored : StoredValue) :
    ofToml? stored.toScalar.toToml = some stored := by
  cases stored <;> rfl

theorem Table.ofToml?_table {encode : α → Toml} {decode : Toml → Option α}
    (h : ∀ x, decode (encode x) = some x) (t : Table α) :
    ofToml? decode (.table (t.entries.map fun (key, x) => (key, encode x))) = some t := by
  have hentries : (t.entries.map fun e => (e.1, encode e.2)).mapM
      (fun e => do return (e.1, ← decode e.2)) = some t.entries :=
    Steps.mapM_map_self fun e _ => by simp [h]
  change Option.bind (List.mapM _ _) _ = _
  rw [Option.bind_eq_some_iff]
  exact ⟨t.entries, hentries, congrArg some (ext (entries_ofList t.nodup))⟩

namespace Config

variable {c : Config} {files : FileTree} {path : String}

/-- The lines for what is stored for an operation. -/
def linesOf (values : Table StoredValue) : List (String × Toml.Scalar) :=
  values.entries.map fun (key, stored) => (key, stored.toScalar)

theorem nodup_linesOf (values : Table StoredValue) : ((linesOf values).map Prod.fst).Nodup := by
  rw [linesOf, List.map_map]
  exact values.nodup

def Logging.lines (l : Logging) : List (String × Toml.Scalar) :=
  [("level", .string l.level), ("json", .bool l.json)]

def Output.lines (o : Output) : List (String × Toml.Scalar) :=
  [("validate_bounds", .bool o.validateBounds)]

theorem sections_eq (c : Config) : c.sections = ⟨["logging"], c.logging.lines⟩ ::
    ⟨["output"], c.output.lines⟩ :: defaultsSections c.defaults := rfl

/-- The configuration as the entries of a document. -/
def document (c : Config) : List (String × Toml) :=
  [("logging", .table [("level", .string c.logging.level), ("json", .bool c.logging.json)]),
    ("output", .table [("validate_bounds", .bool c.output.validateBounds)]),
    ("defaults", .table (c.defaults.entries.map fun (operation, values) =>
      (operation, .table (values.entries.map fun (key, stored) =>
        (key, stored.toScalar.toToml)))))]

theorem ofToml?_document (c : Config) : ofToml? c.document = some c := by
  have hlogging : Toml.orDefault? standard.logging Logging.ofToml? (c.document.lookup "logging") =
      some c.logging := rfl
  have houtput : Toml.orDefault? standard.output Output.ofToml? (c.document.lookup "output") =
      some c.output := rfl
  have hdefaults : Toml.orDefault? standard.defaults
      (Table.ofToml? (Table.ofToml? StoredValue.ofToml?)) (c.document.lookup "defaults") =
      some c.defaults :=
    Table.ofToml?_table (Table.ofToml?_table StoredValue.ofToml?_toToml) c.defaults
  rw [ofToml?, hlogging, houtput, hdefaults]
  rfl

/-- A valid configuration stores finite numbers only. -/
theorem isFinite_linesOf (hv : c.validate = .ok ()) {e : String × Table StoredValue}
    (he : e ∈ c.defaults.entries) : ∀ line ∈ linesOf e.2, line.2.isFinite = true := by
  obtain ⟨op, _, hvalues⟩ := (validate_iff.1 hv).2 e he
  refine List.forall_mem_map.2 fun v hm => ?_
  obtain ⟨descriptor, _, _, hfinite⟩ := hvalues v hm
  obtain ⟨key, stored⟩ := v
  cases stored with
  | decimal x => exact hfinite
  | _ => rfl

theorem writable_sections (hv : c.validate = .ok ()) : ∀ s ∈ c.sections, s.Writable := by
  have hdepth : 1 ≤ Toml.depthLimit ∧ 2 ≤ Toml.depthLimit := by decide
  simp only [sections_eq, List.forall_mem_cons]
  refine ⟨⟨by simp, hdepth.1, by simp [Logging.lines, Toml.Scalar.isFinite]⟩,
    ⟨by simp, hdepth.1, by simp [Output.lines, Toml.Scalar.isFinite]⟩, ?_⟩
  unfold defaultsSections
  split
  · exact List.forall_mem_singleton.2 ⟨by simp, hdepth.1, by simp⟩
  · exact List.forall_mem_map.2 fun e he => ⟨by simp, hdepth.2, isFinite_linesOf hv he⟩

/-- The tables of the sections that every configuration has. -/
def ownTables (c : Config) : Toml.Entries :=
  [("logging", Toml.tableOf c.logging.lines), ("output", Toml.tableOf c.output.lines)]

theorem not_mem_ownTables (c : Config) : "defaults" ∉ c.ownTables.map Prod.fst :=
  (by decide : "defaults" ∉ ["logging", "output"])

theorem exists_ownTables (c : Config) : ∃ d,
    c.sections.foldlM Toml.Document.addSection .start =
      (defaultsSections c.defaults).foldlM Toml.Document.addSection d ∧
    d.close = some c.ownTables := by
  have hstart : Toml.Document.start.close = some [] := rfl
  have hlogging : "logging" ∉ ([] : Toml.Entries).map Prod.fst := List.not_mem_nil
  obtain ⟨d, hadd, hd⟩ := Toml.addSection_new c.logging.lines hstart hlogging
    (by decide : ["level", "json"].Nodup)
  obtain ⟨d', hadd', hd'⟩ := Toml.addSection_new c.output.lines hd
    (by decide : "output" ∉ ["logging"]) (by decide : ["validate_bounds"].Nodup)
  refine ⟨d', ?_, hd'⟩
  change (((Toml.Document.start.addSection ⟨["logging"], c.logging.lines⟩).bind fun d =>
    (d.addSection ⟨["output"], c.output.lines⟩).bind fun d =>
      (defaultsSections c.defaults).foldlM Toml.Document.addSection d)) = _
  rw [hadd, Option.bind_some, hadd', Option.bind_some]

/-- What the defaults make of their sections completes the document. -/
theorem finishEntries_document {node : Toml.Node} (h : node.finish =
      .table (c.defaults.entries.map fun e => (e.1, (Toml.tableOf (linesOf e.2)).finish))) :
    Toml.finishEntries (c.ownTables ++ [("defaults", node)]) = c.document := by
  rw [Toml.finishEntries_eq, List.map_append, ownTables]
  simp only [List.map_cons, List.map_nil, Toml.finish_tableOf, h, linesOf, List.map_map]
  rfl

/-- Without any operation the section of the defaults is empty; else each operation has a table. -/
theorem foldlM_defaultsSections {d : Toml.Document} (hd : d.close = some c.ownTables) :
    ∃ d', (defaultsSections c.defaults).foldlM Toml.Document.addSection d = some d' ∧
      d'.close.map Toml.finishEntries = some c.document := by
  unfold defaultsSections
  split
  · rename_i hempty
    obtain ⟨d', hadd, hclose⟩ := Toml.addSection_new [] hd c.not_mem_ownTables List.nodup_nil
    refine ⟨d', by rw [List.foldlM_cons, hadd]; rfl, ?_⟩
    rw [hclose, Option.map_some, finishEntries_document]
    rw [List.isEmpty_iff.1 hempty]
    rfl
  · rename_i hempty
    have hne : c.defaults.entries ≠ [] := fun he => hempty (List.isEmpty_iff.2 he)
    let tables := c.defaults.entries.map fun e => (e.1, linesOf e.2)
    have hkeys : tables.map Prod.fst = c.defaults.entries.map Prod.fst := by
      simp [tables, Function.comp_def]
    have hholds : d.Holds c.ownTables "defaults" [] := by rwa [Toml.Document.Holds, if_pos rfl]
    obtain ⟨d', hadd, hclose⟩ := Toml.addSections_under tables hholds c.not_mem_ownTables
      (by rw [hkeys]; exact c.defaults.nodup) (List.forall_mem_map.2 fun e _ => nodup_linesOf e.2)
    refine ⟨d', ?_, ?_⟩
    · rw [← hadd, List.map_map]
      rfl
    · rw [hclose, if_neg (by simpa [tables] using hne), Option.map_some, finishEntries_document]
      rw [Toml.Node.finish, Toml.finishEntries_eq]
      simp [tables]

/-- The sections come together to a document with all of the configuration. -/
theorem foldlM_sections (c : Config) : ∃ d,
    c.sections.foldlM Toml.Document.addSection .start = some d ∧
      d.close.map Toml.finishEntries = some c.document := by
  obtain ⟨d, hsections, hd⟩ := c.exists_ownTables
  rw [hsections]
  exact foldlM_defaultsSections hd

theorem parse_render_toml (hv : c.validate = .ok ()) : parse .toml (c.render .toml) = .ok c := by
  obtain ⟨d, hd, hclose⟩ := c.foldlM_sections
  have hread : Toml.read? (c.render .toml) = some c.document := by
    rw [render, Toml.read?_write (writable_sections hv), hd, Option.bind_some, hclose]
  rw [parse, hread, Option.bind_some, ofToml?_document]

/-- A valid configuration that was saved as TOML is the one that is loaded again. -/
theorem load_save_toml (hv : c.validate = .ok ()) (hs : Path.suffix? path = some "toml")
    (hw : files.Writable path) : (save files path c).failure = none ∧
      (load (save files path c).files path).result = .ok c := by
  obtain ⟨hsave, hload⟩ := load_save hv (Format.ofPath?_toml hs) hw
  exact ⟨hsave, (hload c).2 ⟨parse_render_toml hv, hv⟩⟩

theorem load_save_toml_diverse :
    (diverse.validate = .ok () ∧ Path.suffix? "shop/probe.toml" = some "toml" ∧
      (∅ : FileTree).Writable "shop/probe.toml") ∧
    (load (save ∅ "shop/probe.toml" diverse).files "shop/probe.toml").result = .ok diverse := by
  have hv : diverse.validate = .ok () := by decide +kernel
  have hs : Path.suffix? "shop/probe.toml" = some "toml" := by decide +kernel
  have hw : (∅ : FileTree).Writable "shop/probe.toml" := by decide +kernel
  exact ⟨⟨hv, hs, hw⟩, (load_save_toml hv hs hw).2⟩

end Config

end ProbeCycle
