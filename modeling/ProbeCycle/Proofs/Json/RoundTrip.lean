import ProbeCycle.Proofs.Json.Leaf

namespace ProbeCycle.Json

/-- Literals have the form that JSON wants, and texts are made of characters. -/
inductive Writable : Json → Prop where
  | null : Writable .null
  | bool (flag : Bool) : Writable (.bool flag)
  | number {l : NumberLiteral} (h : l.WellFormed) : Writable (.number l)
  | string (s : String) : Writable (.string (.ofString s))
  | array {items : List Json} (h : ∀ item ∈ items, Writable item) : Writable (.array items)
  | object {members : List (Text × Json)} (h : ∀ m ∈ members, ∃ name, m.1 = .ofString name)
    (h' : ∀ m ∈ members, Writable m.2) : Writable (.object members)

variable {layout : Layout} {level outer fuel : Nat} {blanks cs rest : List Char}

theorem skipBlanks_append (h : ∀ c ∈ blanks, isBlank c = true) (cs : List Char) :
    skipBlanks (blanks ++ cs) = skipBlanks cs :=
  List.dropWhile_append_of_pos h

theorem skipBlanks_of_head (h : ∀ c ∈ cs.head?, isBlank c = false) : skipBlanks cs = cs := by
  cases cs with
  | nil => rfl
  | cons c cs => simp [skipBlanks, h c rfl]

theorem Layout.newline_blank (layout : Layout) (level : Nat) :
    ∀ c ∈ layout.newline level, isBlank c = true := by
  cases layout with
  | compact => simp [newline]
  | indented =>
    intro c hc
    rcases List.mem_cons.1 hc with rfl | hc
    · rfl
    · rw [List.eq_of_mem_replicate hc]
      rfl

theorem Layout.gap_blank (layout : Layout) : ∀ c ∈ layout.gap, isBlank c = true := by
  cases layout with
  | compact => simp [gap]
  | indented =>
    intro c hc
    rw [List.mem_singleton.1 hc]
    rfl

theorem readValue_blanks (h : ∀ c ∈ blanks, isBlank c = true) (cs : List Char) :
    readValue fuel (blanks ++ cs) = readValue fuel cs := by
  cases fuel with
  | zero => rfl
  | succ fuel => rw [readValue, readValue, skipBlanks_append h]

/-- What comes behind a value in a list does not go on with a number. -/
theorem ends_newline {c : Char} (hc : isNumberChar c = false) :
    Ends (layout.newline level ++ c :: rest) := by
  cases layout with
  | compact => exact ends_cons hc rest
  | indented => exact ends_cons rfl _

theorem readValue_string (s : String) (rest : List Char) :
    readValue (fuel + 1) (writeText (.ofString s) ++ rest) =
      some (.string (.ofString s), rest) := by
  have htext : writeText (.ofString s) ++ rest =
      '"' :: ((Text.ofString s).flatMap writePiece ++ '"' :: rest) := by
    simp [writeText]
  rw [htext, readValue, skipBlanks_of_head (by simp; rfl)]
  show (readString ((Text.ofString s).flatMap writePiece ++ '"' :: rest)).map _ = _
  rw [readString_ofString]
  rfl

/-- The first character of a number tells it from every other value. -/
theorem exists_cons_of_spells {l : NumberLiteral} (h : l.Spells cs) :
    ∃ c more, cs = c :: more ∧ (c.isDigit = true ∨ c = '-') := by
  cases h with
  | parts negative hwhole _ _ =>
  obtain ⟨hne, hall⟩ := Text.isDigits_iff.1 hwhole.1
  obtain ⟨c, ds, rfl⟩ := List.exists_cons_of_ne_nil hne
  cases negative with
  | true => exact ⟨'-', _, rfl, Or.inr rfl⟩
  | false => exact ⟨c, _, rfl, Or.inl (hall c (List.mem_cons_self ..))⟩

theorem isBlank_of_number {c : Char} (h : c.isDigit = true ∨ c = '-') : isBlank c = false := by
  rcases h with h | rfl
  · cases hb : isBlank c with
    | false => rfl
    | true =>
      simp only [isBlank, Bool.or_eq_true, beq_iff_eq] at hb
      rcases hb with ((rfl | rfl) | rfl) | rfl <;> cases h
  · rfl

theorem readValue_spelled {l : NumberLiteral} (h : l.Spells cs) (hrest : Ends rest) :
    readValue (fuel + 1) (cs ++ rest) = some (.number l, rest) := by
  obtain ⟨c, more, rfl, hc⟩ := exists_cons_of_spells h
  have hread := readNumber_spelled h hrest
  have hne : ∀ d : Char, d.isDigit = false → d ≠ '-' → c ≠ d := by
    rintro d hd hminus rfl
    rcases hc with hc | hc
    · rw [hd] at hc
      cases hc
    · exact hminus hc
  rw [List.cons_append] at hread ⊢
  rw [readValue, skipBlanks_of_head (by simpa using isBlank_of_number hc)]
  split
  case h_7 => rw [hread]; rfl
  all_goals
    rename_i he
    exact absurd (List.cons.inj he).1 (hne _ rfl (by decide))

/-- What a value starts with is neither a blank nor the end of a list. -/
theorem exists_write {j : Json} (h : Writable j) (layout : Layout) (level : Nat) :
    ∃ c cs, write layout level j = c :: cs ∧ isBlank c = false ∧ c ≠ ']' := by
  cases h with
  | null => exact ⟨'n', _, rfl, rfl, by decide⟩
  | bool flag =>
    cases flag with
    | false => exact ⟨'f', _, rfl, rfl, by decide⟩
    | true => exact ⟨'t', _, rfl, rfl, by decide⟩
  | number h =>
    obtain ⟨c, cs, htext, hc⟩ := exists_cons_of_spells (spells_writeNumber h)
    refine ⟨c, cs, by rw [write, htext], isBlank_of_number hc, ?_⟩
    rintro rfl
    rcases hc with hc | hc <;> cases hc
  | string s => exact ⟨'"', _, rfl, rfl, by decide⟩
  | @array items h =>
    cases items with
    | nil => exact ⟨'[', _, rfl, rfl, by decide⟩
    | cons item items => exact ⟨'[', _, rfl, rfl, by decide⟩
  | @object members h h' =>
    cases members with
    | nil => exact ⟨'{', _, rfl, rfl, by decide⟩
    | cons member members => exact ⟨'{', _, rfl, rfl, by decide⟩

theorem behind?_mark (h : ∀ c ∈ blanks, isBlank c = true) {mark : Char}
    (hmark : isBlank mark = false) (rest : List Char) :
    behind? mark (blanks ++ mark :: rest) = some rest := by
  rw [behind?, skipBlanks_append h, skipBlanks_of_head (by simpa using hmark)]
  exact if_pos rfl

theorem behind?_other (h : ∀ c ∈ blanks, isBlank c = true) {mark c : Char}
    (hblank : isBlank c = false) (hc : c ≠ mark) (rest : List Char) :
    behind? mark (blanks ++ c :: rest) = none := by
  rw [behind?, skipBlanks_append h, skipBlanks_of_head (by simpa using hblank)]
  exact if_neg hc

variable {α : Type} {item : α} {items : List α} {close : Char} {more : List Char}
  {read : List Char → Option (List α × List Char)}

theorem continued?_last (h : ∀ c ∈ blanks, isBlank c = true) (hclose : isBlank close = false)
    (rest : List Char) :
    continued? close item read (blanks ++ close :: rest) = some ([item], rest) := by
  rw [continued?, behind?_mark h hclose]
  rfl

theorem continued?_comma (hclose : ',' ≠ close) (h : read more = some (items, rest)) :
    continued? close item read (',' :: more) = some (item :: items, rest) := by
  have hcomma : behind? ',' ([] ++ ',' :: more) = some more :=
    behind?_mark (List.forall_mem_nil _) rfl more
  have hother : behind? close ([] ++ ',' :: more) = none :=
    behind?_other (List.forall_mem_nil _) rfl hclose more
  rw [List.nil_append] at hcomma hother
  rw [continued?, hother, hcomma, Option.bind_some, h]
  rfl

theorem readValue_array {items : List Json} (hclose : behind? ']' more = none)
    (h : readItems fuel more = some (items, rest)) :
    readValue (fuel + 1) ('[' :: more) = some (.array items, rest) := by
  rw [readValue, skipBlanks_of_head (by simp; rfl)]
  change ((behind? ']' more).map _ <|> (readItems fuel more).map _) = _
  rw [hclose, h]
  rfl

theorem readValue_object {members : List (Text × Json)} (hclose : behind? '}' more = none)
    (h : readMembers fuel more = some (members, rest)) :
    readValue (fuel + 1) ('{' :: more) = some (.object members, rest) := by
  rw [readValue, skipBlanks_of_head (by simp; rfl)]
  change ((behind? '}' more).map _ <|> (readMembers fuel more).map _) = _
  rw [hclose, h]
  rfl

theorem readItems_blanks {item : Json} {after : List Char}
    (h : readValue fuel (cs ++ after) = some (item, after)) :
    readItems (fuel + 1) (layout.newline level ++ cs ++ after) =
      continued? ']' item (readItems fuel) after := by
  rw [readItems, List.append_assoc, readValue_blanks (layout.newline_blank level), h]
  rfl

/-- The name and the colon of a member are passed over before its value is read. -/
theorem readMembers_name {name : String} {value : Json} {after : List Char}
    (h : readValue fuel (cs ++ after) = some (value, after)) :
    readMembers (fuel + 1) (layout.newline level ++ writeText (.ofString name) ++
      ':' :: layout.gap ++ cs ++ after) =
        continued? '}' (.ofString name, value) (readMembers fuel) after := by
  have htext : layout.newline level ++ writeText (.ofString name) ++ ':' :: layout.gap ++ cs ++
      after = layout.newline level ++ '"' :: ((Text.ofString name).flatMap writePiece ++ '"' ::
        ([] ++ ':' :: (layout.gap ++ (cs ++ after)))) := by
    simp [writeText]
  have hcolon : behind? ':' ([] ++ ':' :: (layout.gap ++ (cs ++ after))) =
      some (layout.gap ++ (cs ++ after)) := behind?_mark (List.forall_mem_nil _) rfl _
  rw [htext, readMembers, behind?_mark (layout.newline_blank level) rfl, Option.bind_eq_bind,
    Option.bind_some, readString_ofString]
  simp only [Option.bind_eq_bind, Option.bind_some, hcolon, readValue_blanks layout.gap_blank, h]

/-- No list that has something in it closes at once. -/
theorem behind?_writeItems {items : List Json} {level : Nat} (h : ∀ item ∈ items, Writable item)
    (hne : items ≠ []) (layout : Layout) (rest : List Char) :
    behind? ']' (writeItems layout level items ++ rest) = none := by
  obtain ⟨item, items, rfl⟩ := List.exists_cons_of_ne_nil hne
  obtain ⟨c, cs, htext, hblank, hc⟩ := exists_write (h item (List.mem_cons_self ..)) layout level
  have hsplit : ∃ more, writeItems layout level (item :: items) ++ rest =
      layout.newline level ++ c :: more := by
    cases items with
    | nil => exact ⟨cs ++ rest, by simp [writeItems, htext]⟩
    | cons next items => exact ⟨_, by simp only [writeItems, htext, List.append_assoc]; rfl⟩
  obtain ⟨more, hmore⟩ := hsplit
  rw [hmore, behind?_other (layout.newline_blank level) hblank hc]

theorem behind?_writeMembers {members : List (Text × Json)} {level : Nat} (hne : members ≠ [])
    (layout : Layout) (rest : List Char) :
    behind? '}' (writeMembers layout level members ++ rest) = none := by
  obtain ⟨⟨name, value⟩, members, rfl⟩ := List.exists_cons_of_ne_nil hne
  have hsplit : ∃ more, writeMembers layout level ((name, value) :: members) ++ rest =
      layout.newline level ++ '"' :: more := by
    cases members with
    | nil => exact ⟨_, by simp only [writeMembers, writeText, List.append_assoc]; rfl⟩
    | cons next members => exact ⟨_, by simp only [writeMembers, writeText, List.append_assoc]; rfl⟩
  obtain ⟨more, hmore⟩ := hsplit
  rw [hmore, behind?_other (layout.newline_blank level) rfl (by decide)]

mutual

/-- Twice the length of the text is fuel enough, whatever comes behind. -/
theorem readValue_write : ∀ {j : Json} {fuel level : Nat} {rest : List Char}, Writable j →
    2 * (write layout level j).length + 1 ≤ fuel → Ends rest →
    readValue fuel (write layout level j ++ rest) = some (j, rest)
  | _, 0, _, _, _, hfuel, _ => absurd hfuel (by omega)
  | .null, fuel + 1, level, rest, _, _, _ => rfl
  | .bool flag, fuel + 1, level, rest, _, _, _ => by cases flag <;> rfl
  | .number l, fuel + 1, level, rest, .number h, _, hrest =>
    readValue_spelled (spells_writeNumber h) hrest
  | .string text, fuel + 1, level, rest, h, _, _ => by
    cases h with
    | string s => exact readValue_string s rest
  | .array [], fuel + 1, level, rest, _, _, _ => rfl
  | .object [], fuel + 1, level, rest, _, _, _ => rfl
  | .array (item :: items), fuel + 1, level, rest, .array h, hfuel, _ => by
    have htext : write layout level (.array (item :: items)) ++ rest =
        '[' :: (writeItems layout (level + 1) (item :: items) ++
          (layout.newline level ++ ']' :: rest)) := by
      simp [write]
    have hlength : 2 * (writeItems layout (level + 1) (item :: items)).length + 2 ≤ fuel := by
      simp only [write, List.length_append, List.length_cons, List.length_nil] at hfuel
      omega
    rw [htext]
    exact readValue_array (behind?_writeItems h (List.cons_ne_nil _ _) layout _)
      (readItems_write h (List.cons_ne_nil _ _) hlength)
  | .object (member :: members), fuel + 1, level, rest, .object h h', hfuel, _ => by
    have htext : write layout level (.object (member :: members)) ++ rest =
        '{' :: (writeMembers layout (level + 1) (member :: members) ++
          (layout.newline level ++ '}' :: rest)) := by
      simp [write]
    have hlength : 2 * (writeMembers layout (level + 1) (member :: members)).length + 2 ≤ fuel := by
      simp only [write, List.length_append, List.length_cons, List.length_nil] at hfuel
      omega
    rw [htext]
    exact readValue_object (behind?_writeMembers (List.cons_ne_nil _ _) layout _)
      (readMembers_write h h' (List.cons_ne_nil _ _) hlength)

theorem readItems_write : ∀ {items : List Json} {fuel level outer : Nat} {rest : List Char},
    (∀ item ∈ items, Writable item) → items ≠ [] →
    2 * (writeItems layout level items).length + 2 ≤ fuel →
    readItems fuel (writeItems layout level items ++ (layout.newline outer ++ ']' :: rest)) =
      some (items, rest)
  | _, 0, _, _, _, _, _, hfuel => absurd hfuel (by omega)
  | [], fuel + 1, level, outer, rest, _, hne, _ => absurd rfl hne
  | [item], fuel + 1, level, outer, rest, h, _, hfuel => by
    simp only [writeItems, List.length_append] at hfuel
    exact Eq.trans (readItems_blanks (readValue_write (h item (List.mem_cons_self ..)) (by omega)
      (ends_newline rfl))) (continued?_last (layout.newline_blank outer) rfl rest)
  | item :: next :: items, fuel + 1, level, outer, rest, h, _, hfuel => by
    simp only [writeItems, List.length_append, List.length_cons] at hfuel
    have hmore : readItems fuel (writeItems layout level (next :: items) ++
        (layout.newline outer ++ ']' :: rest)) = some (next :: items, rest) :=
      readItems_write (fun i hi => h i (List.mem_cons_of_mem _ hi)) (List.cons_ne_nil _ _)
        (by omega)
    have htext : writeItems layout level (item :: next :: items) ++
        (layout.newline outer ++ ']' :: rest) =
          layout.newline level ++ write layout level item ++ ',' ::
            (writeItems layout level (next :: items) ++ (layout.newline outer ++ ']' :: rest)) := by
      simp [writeItems]
    rw [htext]
    exact Eq.trans (readItems_blanks (readValue_write (h item (List.mem_cons_self ..)) (by omega)
      (ends_cons rfl _))) (continued?_comma (by decide) hmore)

theorem readMembers_write : ∀ {members : List (Text × Json)} {fuel level outer : Nat}
    {rest : List Char}, (∀ m ∈ members, ∃ name, m.1 = .ofString name) →
    (∀ m ∈ members, Writable m.2) → members ≠ [] →
    2 * (writeMembers layout level members).length + 2 ≤ fuel →
    readMembers fuel (writeMembers layout level members ++ (layout.newline outer ++ '}' :: rest)) =
      some (members, rest)
  | _, 0, _, _, _, _, _, _, hfuel => absurd hfuel (by omega)
  | [], fuel + 1, level, outer, rest, _, _, hne, _ => absurd rfl hne
  | [(name, value)], fuel + 1, level, outer, rest, hn, h, _, hfuel => by
    obtain ⟨name, rfl⟩ := hn _ (List.mem_cons_self ..)
    simp only [writeMembers, List.length_append, List.length_cons] at hfuel
    exact Eq.trans (readMembers_name (readValue_write (h _ (List.mem_cons_self ..)) (by omega)
      (ends_newline rfl))) (continued?_last (layout.newline_blank outer) rfl rest)
  | (name, value) :: next :: members, fuel + 1, level, outer, rest, hn, h, _, hfuel => by
    obtain ⟨name, rfl⟩ := hn _ (List.mem_cons_self ..)
    simp only [writeMembers, List.length_append, List.length_cons] at hfuel
    have hmore : readMembers fuel (writeMembers layout level (next :: members) ++
        (layout.newline outer ++ '}' :: rest)) = some (next :: members, rest) :=
      readMembers_write (fun m hm => hn m (List.mem_cons_of_mem _ hm))
        (fun m hm => h m (List.mem_cons_of_mem _ hm)) (List.cons_ne_nil _ _) (by omega)
    have htext : writeMembers layout level ((.ofString name, value) :: next :: members) ++
        (layout.newline outer ++ '}' :: rest) =
          layout.newline level ++ writeText (.ofString name) ++ ':' :: layout.gap ++
            write layout level value ++ ',' ::
              (writeMembers layout level (next :: members) ++
                (layout.newline outer ++ '}' :: rest)) := by
      simp [writeMembers]
    rw [htext]
    exact Eq.trans (readMembers_name (readValue_write (h _ (List.mem_cons_self ..)) (by omega)
      (ends_cons rfl _))) (continued?_comma (by decide) hmore)

end

/-- Text written for a value is read as the value. -/
theorem read?_toText {j : Json} (h : Writable j) (layout : Layout) :
    read? (j.toText layout) = some j := by
  have hread : ∀ fuel, 2 * (write layout 0 j).length + 1 ≤ fuel →
      readValue fuel (write layout 0 j) = some (j, []) := by
    intro fuel hfuel
    have hvalue := readValue_write h hfuel (show Ends [] by simp [Ends])
    rwa [List.append_nil] at hvalue
  rw [read?, toText, String.toList_ofList, hread _ (by omega)]
  rfl

/-- The text is what the characters spell, with nothing but blanks around them. -/
def Pads (cs : List Char) (text : String) : Prop :=
  ∃ before after, (∀ c ∈ before, isBlank c = true) ∧ (∀ c ∈ after, isBlank c = true) ∧
    text.toList = before ++ (cs ++ after)

/-- A literal is read however it is spelled, also with blanks around it. -/
theorem read?_spelled {l : NumberLiteral} {text : String} (h : l.Spells cs)
    (hpads : Pads cs text) : read? text = some (.number l) := by
  obtain ⟨before, after, hbefore, hafter, htext⟩ := hpads
  have hends : Ends after := by
    intro c hc
    have hblank := hafter c (List.mem_of_mem_head? hc)
    simp only [isBlank, Bool.or_eq_true, beq_iff_eq] at hblank
    rcases hblank with ((rfl | rfl) | rfl) | rfl <;> rfl
  have hskip : skipBlanks after = [] := List.dropWhile_eq_nil_iff.2 hafter
  have hread : ∀ fuel, readValue (fuel + 1) text.toList = some (.number l, after) := by
    intro fuel
    rw [htext, readValue_blanks hbefore, readValue_spelled h hends]
  rw [read?, hread]
  exact if_pos hskip

end ProbeCycle.Json
