import ProbeCycle.Proofs.Toml.Scalar

namespace ProbeCycle.Toml

variable {cs rest : List Char} {d : Document}

/-- A header that can be read again, and values that a document can hold. -/
structure Section.Writable (s : Section) : Prop where
  path : s.path ≠ []
  depth : s.path.length ≤ depthLimit
  values : ∀ line ∈ s.lines, line.2.isFinite = true

/-- Give a key its value in the section that is open. -/
def Document.addLine (d : Document) (line : String × Scalar) : Option Document :=
  d.assign [] line.1 line.2.toToml

/-- Open a section and go through its lines. -/
def Document.addSection (d : Document) (s : Section) : Option Document := do
  let key ← s.path.getLast?
  let d ← d.openTable s.path.dropLast key
  s.lines.foldlM addLine d

/-- From any document, reading the text goes on as `next` says. -/
def Reads (cs : List Char) (next : Document → Option Document) : Prop :=
  ∀ d fuel, cs.length < fuel → readLines fuel d cs = next d

variable {next next' : Document → Option Document}

theorem Reads.congr (h : Reads cs next) (hnext : ∀ d, next d = next' d) : Reads cs next' :=
  fun d fuel hfuel => (h d fuel hfuel).trans (hnext d)

theorem reads_nil : Reads [] some := by
  intro d fuel h
  obtain ⟨fuel, rfl⟩ := Nat.exists_eq_add_one_of_ne_zero (Nat.ne_of_gt h)
  rfl

theorem reads_break (h : Reads rest next) : Reads ('\n' :: rest) next := by
  intro d fuel hfuel
  obtain ⟨fuel, rfl⟩ := Nat.exists_eq_add_one_of_ne_zero (Nat.ne_of_gt (Nat.zero_lt_of_lt hfuel))
  have hrest := h d fuel (by simpa using hfuel)
  exact hrest

theorem readLines_statement (fuel : Nat) (d : Document) {c : Char} (hc : StartsKey c ∨ c = '[')
    (cs : List Char) : readLines (fuel + 1) d (c :: cs) =
      (readStatement d (c :: cs)).bind fun (d, rest) => readLines fuel d rest := by
  have hskip : skipSpaces (c :: cs) = c :: cs := by
    rcases hc with hc | rfl
    · exact skipSpaces_of_startsKey hc cs
    · rfl
  have hne {e : Char} (hquote : e ≠ '"') (hbare : isBareKeyChar e = false) (hopen : e ≠ '[') :
      c ≠ e := by
    rcases hc with hc | rfl
    · exact hc.ne hquote hbare
    · exact hopen.symm
  rw [readLines, hskip]
  split
  · rename_i he
    cases he
  · rename_i he
    exact absurd (List.cons.inj he).1 (hne (by decide) rfl (by decide))
  · rename_i he
    exact absurd (List.cons.inj he).1 (hne (by decide) rfl (by decide))
  · rename_i he
    exact absurd (List.cons.inj he).1 (hne (by decide) rfl (by decide))
  · rfl

/-- A statement is read, and then what comes behind it. -/
theorem reads_statement {change : Document → Option Document} {c : Char}
    (hc : StartsKey c ∨ c = '[') (hlen : rest.length ≤ cs.length)
    (hread : ∀ d, readStatement d (c :: cs) = (change d).map (·, rest)) (h : Reads rest next) :
    Reads (c :: cs) fun d => (change d).bind next := by
  intro d fuel hfuel
  obtain ⟨fuel, rfl⟩ := Nat.exists_eq_add_one_of_ne_zero (Nat.ne_of_gt (Nat.zero_lt_of_lt hfuel))
  rw [List.length_cons] at hfuel
  rw [readLines_statement fuel d hc, hread]
  change _ = (change d).bind next
  cases change d with
  | none => rfl
  | some d' => exact h d' fuel (by omega)

theorem afterLine?_break (rest : List Char) : afterLine? ('\n' :: rest) = some rest := rfl

theorem readStatement_writeLine {line : String × Scalar} (h : line.2.isFinite = true)
    (d : Document) (rest : List Char) :
    readStatement d (writeLine line ++ rest) = (d.addLine line).map (·, rest) := by
  obtain ⟨key, value⟩ := line
  have hlist : writeLine (key, value) ++ rest =
      writeKey key ++ ' ' :: '=' :: (' ' :: (writeScalar value ++ '\n' :: rest)) := by
    simp [writeLine]
  obtain ⟨c, cs, hkey, hc⟩ := exists_writeKey key
  have hopen (more : List Char) : writeKey key ++ ' ' :: '=' :: ' ' ::
      (writeScalar value ++ '\n' :: rest) ≠ '[' :: more := by
    rw [hkey]
    exact fun he => hc.ne (by decide) rfl (List.cons.inj he).1
  rw [hlist, readStatement]
  · rw [readKey_writeKey]
    simp only [Option.bind_eq_bind, Option.bind_some, skipSpaces_writeScalar h,
      readValue_writeScalar _ _ h, afterLine?_break]
    rw [Document.addLine]
    cases d.assign [] key value.toToml <;> rfl
  · exact fun more => hopen _
  · exact fun more => hopen _

theorem reads_line {line : String × Scalar} (h : line.2.isFinite = true) (hrest : Reads rest next) :
    Reads (writeLine line ++ rest) fun d => (d.addLine line).bind next := by
  obtain ⟨c, cs, hkey, hc⟩ := exists_writeKey line.1
  have hread (d : Document) := readStatement_writeLine h d rest
  have hlist : writeLine line ++ rest =
      c :: (cs ++ ' ' :: '=' :: ' ' :: (writeScalar line.2 ++ '\n' :: rest)) := by
    simp [writeLine, hkey]
  simp only [hlist] at hread ⊢
  exact reads_statement (Or.inl hc) (by simp; omega) hread hrest

theorem readStatement_header {path : List String} (key : String)
    (hlen : path.length + 1 ≤ depthLimit) (d : Document) (rest : List Char) :
    readStatement d ('[' :: writePath (path ++ [key]) ++ ']' :: '\n' :: rest) =
      (d.openTable path key).map (·, rest) := by
  have hkey := readKey_writePath key ('\n' :: rest) hlen
  have hne : path ++ [key] ≠ [] := by simp
  obtain ⟨c, cs, hpath, hc⟩ := exists_writePath hne
  have hopen (more : List Char) :
      writePath (path ++ [key]) ++ ']' :: '\n' :: rest ≠ '[' :: more := by
    rw [hpath]
    exact fun he => hc.ne (by decide) rfl (List.cons.inj he).1
  rw [List.cons_append, readStatement]
  · rw [hkey]
    simp only [Option.bind_eq_bind, Option.bind_some, afterLine?_break]
    cases d.openTable path key <;> rfl
  · exact fun more => hopen _

theorem reads_header {path : List String} (key : String) (hlen : path.length + 1 ≤ depthLimit)
    (hrest : Reads rest next) :
    Reads ('[' :: writePath (path ++ [key]) ++ ']' :: '\n' :: rest) fun d =>
      (d.openTable path key).bind next :=
  reads_statement (Or.inr rfl) (by simp; omega) (fun d => readStatement_header key hlen d rest)
    hrest

theorem reads_lines {lines : List (String × Scalar)}
    (h : ∀ line ∈ lines, line.2.isFinite = true) (hrest : Reads rest next) :
    Reads (lines.flatMap writeLine ++ rest) fun d =>
      (lines.foldlM Document.addLine d).bind next := by
  induction lines with
  | nil => exact hrest
  | cons line lines ih =>
    obtain ⟨hline, hlines⟩ := List.forall_mem_cons.1 h
    have hread := reads_line hline (ih hlines)
    rw [← List.append_assoc, ← List.flatMap_cons] at hread
    refine hread.congr fun d => ?_
    rw [List.foldlM_cons, Option.bind_eq_bind, Option.bind_assoc]

theorem reads_section {s : Section} (h : s.Writable) (hrest : Reads rest next) :
    Reads (writeSection s ++ rest) fun d => (d.addSection s).bind next := by
  have hlen : s.path.dropLast.length + 1 ≤ depthLimit := by
    have hpos := List.length_pos_of_ne_nil h.path
    have hdepth := h.depth
    rw [List.length_dropLast]
    omega
  have hread := reads_header (s.path.getLast h.path) hlen (reads_lines h.values hrest)
  have hlist : '[' :: writePath (s.path.dropLast ++ [s.path.getLast h.path]) ++ ']' :: '\n' ::
      (s.lines.flatMap writeLine ++ rest) = writeSection s ++ rest := by
    rw [List.dropLast_append_getLast h.path]
    simp [writeSection]
  rw [hlist] at hread
  refine hread.congr fun d => ?_
  simp only [Document.addSection, List.getLast?_eq_getLast_of_ne_nil h.path, Option.bind_eq_bind,
    Option.bind_some, Option.bind_assoc]

theorem reads_sections {sections : List Section} (h : ∀ s ∈ sections, s.Writable) :
    Reads (writeSections sections) fun d => sections.foldlM Document.addSection d := by
  induction sections with
  | nil => exact reads_nil
  | cons s sections ih =>
    obtain ⟨hs, hsections⟩ := List.forall_mem_cons.1 h
    cases sections with
    | nil =>
      have hread := reads_section hs reads_nil
      rw [List.append_nil] at hread
      refine hread.congr fun d => ?_
      rw [List.foldlM_cons]
      rfl
    | cons s' sections =>
      refine (reads_section hs (reads_break (ih hsections))).congr fun d => ?_
      rw [List.foldlM_cons (a := s), Option.bind_eq_bind]

/-- Reading a document that was written adds its sections one after another. -/
theorem read?_write {sections : List Section} (h : ∀ s ∈ sections, s.Writable) :
    read? (write sections) = (sections.foldlM Document.addSection .start).bind fun d =>
      d.close.map finishEntries := by
  have hmark (more : List Char) : writeSections sections ≠ '\uFEFF' :: more := by
    match sections with
    | [] => nofun
    | [_] => exact fun he => absurd (List.cons.inj he).1 (by decide)
    | _ :: _ :: _ => exact fun he => absurd (List.cons.inj he).1 (by decide)
  have hread := reads_sections h .start _ (Nat.lt_succ_self _)
  rw [read?, write, String.toList_ofList]
  split
  · rename_i he
    exact absurd he (hmark _)
  · rw [hread, Option.bind_eq_bind]
    congr 1
    funext d
    cases d.close <;> rfl

end ProbeCycle.Toml
