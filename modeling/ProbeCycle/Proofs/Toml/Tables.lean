import ProbeCycle.Proofs.Table
import ProbeCycle.Proofs.Toml.Document

namespace ProbeCycle.Toml

variable {key parent : String} {entries before inner : Entries} {d : Document} {node : Node}
  {change : Option Node → Option Node}

theorem alter_new (h : key ∉ entries.map Prod.fst) :
    alter key change entries = (change none).map fun node => entries ++ [(key, node)] := by
  induction entries with
  | nil => rfl
  | cons entry rest ih =>
    obtain ⟨k, node⟩ := entry
    obtain ⟨hk, hrest⟩ := not_or.1 (List.mem_cons.not.1 h)
    rw [alter, if_neg (fun he : k = key => hk he.symm), ih hrest, Option.map_map]
    rfl

theorem alter_last (h : key ∉ before.map Prod.fst) :
    alter key change (before ++ [(key, node)]) =
      (change (some node)).map fun node => before ++ [(key, node)] := by
  induction before with
  | nil => rw [List.nil_append, alter, if_pos rfl]; rfl
  | cons entry rest ih =>
    obtain ⟨k, node'⟩ := entry
    obtain ⟨hk, hrest⟩ := not_or.1 (List.mem_cons.not.1 h)
    rw [List.cons_append, alter, if_neg (fun he : k = key => hk he.symm), ih hrest, Option.map_map]
    rfl

theorem filter_new (h : key ∉ entries.map Prod.fst) : entries.filter (·.1 ≠ key) = entries := by
  refine List.filter_eq_self.2 fun e he => ?_
  have hne : e.1 ≠ key := fun hk => h (hk ▸ List.mem_map_of_mem he)
  simpa using hne

/-- The entry that a line makes. -/
def entryOf (line : String × Scalar) : String × Node := (line.1, .value line.2.toToml)

theorem addLine_new {line : String × Scalar} (h : line.1 ∉ d.current.map Prod.fst) :
    d.addLine line = some { d with current := d.current ++ [entryOf line] } := by
  rw [Document.addLine, Document.assign, assign, changeAt, if_neg (fun hp => hp.1 rfl), alter_new h]
  rfl

theorem addLines_new {lines : List (String × Scalar)}
    (h : (d.current.map Prod.fst ++ lines.map Prod.fst).Nodup) :
    lines.foldlM Document.addLine d =
      some { d with current := d.current ++ lines.map entryOf } := by
  induction lines generalizing d with
  | nil => simp
  | cons line lines ih =>
    have hline : line.1 ∉ d.current.map Prod.fst := fun hm =>
      (List.nodup_append.1 h).2.2 _ hm _ List.mem_cons_self rfl
    rw [List.foldlM_cons, addLine_new hline, Option.bind_eq_bind, Option.bind_some, ih]
    · simp
    · simpa [entryOf] using h

/-- A table with a header of its own and nothing but the entries of its lines. -/
def tableOf (lines : List (String × Scalar)) : Node := .table .header (lines.map entryOf)

variable {root : Entries} {lines : List (String × Scalar)}

theorem openTable_new (hroot : d.close = some root) (hk : key ∉ root.map Prod.fst) :
    d.openTable [] key = some ⟨root, [key], false, []⟩ := by
  simp only [Document.openTable, hroot, List.nil_append, nodeAt?, lookup_of_not_mem hk, changeAt,
    filter_new hk, Option.bind_eq_bind, Option.bind_some]
  rfl

theorem close_new (hk : key ∉ root.map Prod.fst) (current : Entries) :
    Document.close ⟨root, [key], false, current⟩ =
      some (root ++ [(key, .table .header current)]) := by
  rw [Document.close]
  change alter key _ root = _
  rw [alter_new hk]
  rfl

/-- A section under a new key makes a new table. -/
theorem addSection_new (lines : List (String × Scalar)) (hroot : d.close = some root)
    (hk : key ∉ root.map Prod.fst) (hlines : (lines.map Prod.fst).Nodup) :
    ∃ d', d.addSection ⟨[key], lines⟩ = some d' ∧
      d'.close = some (root ++ [(key, tableOf lines)]) := by
  refine ⟨_, ?_, close_new hk _⟩
  change ((d.openTable [] key).bind fun d => lines.foldlM Document.addLine d) = _
  rw [openTable_new hroot hk, Option.bind_some, addLines_new (by simpa using hlines)]
  rfl

/-- The tables under a key that has no header of its own, if there are any yet; they come last. -/
def Document.Holds (d : Document) (before : Entries) (parent : String) (inner : Entries) : Prop :=
  d.close = some (if inner = [] then before else before ++ [(parent, .table .passage inner)])

theorem openTable_under (hd : d.Holds before parent inner) (hp : parent ∉ before.map Prod.fst)
    (hk : key ∉ inner.map Prod.fst) : d.openTable [parent] key =
      some ⟨before ++ [(parent, .table .passage inner)], [parent, key], false, []⟩ := by
  unfold Document.Holds at hd
  by_cases hinner : inner = []
  · subst hinner
    rw [if_pos rfl] at hd
    simp only [Document.openTable, hd, List.singleton_append, nodeAt?, lookup_of_not_mem hp,
      changeAt, alter_new hp, Option.bind_eq_bind, Option.bind_some]
    rfl
  · rw [if_neg hinner] at hd
    have hlookup : (before ++ [(parent, Node.table .passage inner)]).lookup parent =
        some (.table .passage inner) := by
      simp [List.lookup_append, lookup_of_not_mem hp]
    simp only [Document.openTable, hd, List.singleton_append, nodeAt?, hlookup,
      lookup_of_not_mem hk, changeAt, alter_last hp, filter_new hk, Option.bind_eq_bind,
      Option.bind_some]
    rfl

theorem close_under (hp : parent ∉ before.map Prod.fst) (hk : key ∉ inner.map Prod.fst)
    (current : Entries) :
    Document.close ⟨before ++ [(parent, .table .passage inner)], [parent, key], false, current⟩ =
      some (before ++ [(parent, .table .passage (inner ++ [(key, .table .header current)]))]) := by
  rw [Document.close]
  change changeAt false _ [parent] .header _ = _
  rw [changeAt, alter_last hp]
  change Option.map _ (Option.map _ (alter key _ inner)) = _
  rw [alter_new hk]
  rfl

/-- A section under the common key comes behind those that are there. -/
theorem addSection_under (hd : d.Holds before parent inner) (hp : parent ∉ before.map Prod.fst)
    (hk : key ∉ inner.map Prod.fst) (hlines : (lines.map Prod.fst).Nodup) :
    ∃ d', d.addSection ⟨[parent, key], lines⟩ = some d' ∧
      d'.Holds before parent (inner ++ [(key, tableOf lines)]) := by
  refine ⟨⟨before ++ [(parent, .table .passage inner)], [parent, key], false, lines.map entryOf⟩,
    ?_, ?_⟩
  · change ((d.openTable [parent] key).bind fun d => lines.foldlM Document.addLine d) = _
    rw [openTable_under hd hp hk, Option.bind_some, addLines_new (by simpa using hlines)]
    rfl
  · rw [Document.Holds, if_neg (by simp), close_under hp hk]
    rfl

theorem addSections_under (tables : List (String × List (String × Scalar)))
    (hd : d.Holds before parent inner) (hp : parent ∉ before.map Prod.fst)
    (hkeys : (inner.map Prod.fst ++ tables.map Prod.fst).Nodup)
    (hlines : ∀ t ∈ tables, (t.2.map Prod.fst).Nodup) :
    ∃ d', (tables.map fun t => ⟨[parent, t.1], t.2⟩).foldlM Document.addSection d = some d' ∧
      d'.Holds before parent (inner ++ tables.map fun t => (t.1, tableOf t.2)) := by
  induction tables generalizing d inner with
  | nil => exact ⟨d, rfl, by simpa using hd⟩
  | cons t tables ih =>
    obtain ⟨ht, htables⟩ := List.forall_mem_cons.1 hlines
    have hk : t.1 ∉ inner.map Prod.fst := fun hm =>
      (List.nodup_append.1 hkeys).2.2 _ hm _ List.mem_cons_self rfl
    obtain ⟨d', hadd, hd'⟩ := addSection_under hd hp hk ht
    obtain ⟨d'', hrun, hd''⟩ := ih hd' (by simpa using hkeys) htables
    refine ⟨d'', ?_, by simpa using hd''⟩
    rw [List.map_cons, List.foldlM_cons, hadd, Option.bind_eq_bind, Option.bind_some, hrun]

theorem finishEntries_eq (entries : Entries) :
    finishEntries entries = entries.map fun (key, node) => (key, node.finish) := by
  induction entries with
  | nil => rfl
  | cons entry rest ih =>
    obtain ⟨key, node⟩ := entry
    rw [finishEntries, ih, List.map_cons]

theorem finish_tableOf (lines : List (String × Scalar)) :
    (tableOf lines).finish = .table (lines.map fun line => (line.1, line.2.toToml)) := by
  rw [tableOf, Node.finish, finishEntries_eq, List.map_map]
  rfl

end ProbeCycle.Toml
