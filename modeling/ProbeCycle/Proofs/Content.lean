import ProbeCycle.Proofs.CommandLine.LineText
import ProbeCycle.Proofs.ReadBack
import ProbeCycle.Proofs.Text

namespace ProbeCycle

open Setting (Descriptor Value)

theorem Text.Plain.not_blank {cs : List Char} (h : Text.Plain cs) : ' ' ∉ cs := by
  intro hb
  exact absurd (h.isNumeric ' ' hb) (by decide)

theorem Word.Spelled.not_blank {word : String} (h : Word.Spelled Text.Plain word) :
    ' ' ∉ word.toList := by
  obtain ⟨letter, value, hlist, hl, hv⟩ := h
  rw [hlist, List.mem_cons, not_or]
  refine ⟨?_, hv.not_blank⟩
  rintro rfl
  simp at hl

/-- The words of a line can be found again. -/
theorem words_of_line {words words' : List String} (hne : words ≠ []) (hne' : words' ≠ [])
    (hw : ∀ word ∈ words, Word.Spelled Text.Plain word)
    (hw' : ∀ word ∈ words', Word.Spelled Text.Plain word)
    (h : " ".intercalate words = " ".intercalate words') : words = words' := by
  have hsplit : ∀ {words : List String}, words ≠ [] →
      (∀ word ∈ words, Word.Spelled Text.Plain word) →
      Text.splitAll ' ' (" ".intercalate words).toList = words.map String.toList := by
    intro words hne hw
    rw [String.toList_intercalate]
    apply Text.splitAll_intercalate (by simpa using hne)
    intro part hpart
    obtain ⟨word, hword, rfl⟩ := List.mem_map.1 hpart
    exact (hw word hword).not_blank
  have hlists : words.map String.toList = words'.map String.toList := by
    rw [← hsplit hne hw, h, hsplit hne' hw']
  exact List.map_injective_iff.2 (fun _ _ => String.toList_injective) hlists

/-- Every setting has a letter, and no two have the same. -/
structure Operation.Lettered (op : Operation) : Prop where
  lettered : ∀ e ∈ op.settings.entries, e.2.parameter ≠ none
  distinct : (op.settings.entries.map (·.2.parameter)).Nodup

instance (op : Operation) : Decidable op.Lettered :=
  decidable_of_iff
    ((∀ e ∈ op.settings.entries, e.2.parameter ≠ none) ∧
      (op.settings.entries.map (·.2.parameter)).Nodup)
    ⟨fun h => ⟨h.1, h.2⟩, fun h => ⟨h.lettered, h.distinct⟩⟩

private theorem Catalog.standard_lettered :
    ∀ e ∈ standard.operations.entries, e.2.Lettered := by
  decide +kernel

theorem lookup_lettered {key : String} {op : Operation} (h : lookup key = .ok op) :
    op.Lettered :=
  Catalog.standard_lettered _ (Table.find?_eq_some.1 (Catalog.lookup_eq_ok.1 h))

private theorem Catalog.standard_codes : ∀ e ∈ standard.operations.entries,
    ∀ e' ∈ standard.operations.entries, e.2.code.equal e'.2.code = true → e.1 = e'.1 := by
  decide +kernel

/-- Operations are told apart by their codes. -/
theorem key_of_code {key key' : String} {op op' : Operation} (h : lookup key = .ok op)
    (h' : lookup key' = .ok op') (hc : op.code.equal op'.code = true) : key = key' :=
  Catalog.standard_codes _ (Table.find?_eq_some.1 (Catalog.lookup_eq_ok.1 h)) _
    (Table.find?_eq_some.1 (Catalog.lookup_eq_ok.1 h')) hc

/-- The value of a setting that appears. -/
def Snapshot.shown? (s : Snapshot) (key : String) : Option Value :=
  (s.find? key).bind fun item => if s.includes item then some item.value else none

/-- The same settings appear in both, with equal values. -/
structure Snapshot.ShowsSame (s s' : Snapshot) : Prop where
  keys : ∀ key, (s.shown? key).isSome = (s'.shown? key).isSome
  values : ∀ key value value', s.shown? key = some value → s'.shown? key = some value' →
    value.equal value' = true

/-- What stands behind the letter of a setting to which nothing is added. -/
def Setting.Value.wordText : Value → String
  | .boolean flag => if flag then "1" else "0"
  | .number x => Word.number x
  | .choice index => toString index.toNat

theorem Line.textOf_none (item : Snapshot.Item) : Line.textOf item none = item.value.wordText := by
  unfold Line.textOf Setting.Value.wordText
  cases item.value <;> rfl

/-- What is written tells the values of a setting apart. -/
theorem Setting.Value.wordText_inj {d : Descriptor} {value value' : Value} (h : d.Accepts value)
    (h' : d.Accepts value') : value.wordText = value'.wordText ↔ value.equal value' = true := by
  have hkind : value.kind = value'.kind := h.1.trans h'.1.symm
  cases value with
  | boolean flag =>
    cases value' with
    | boolean flag' => cases flag <;> cases flag' <;> decide
    | _ => cases hkind
  | number x =>
    cases value' with
    | number y => exact Word.number_inj h.2 h'.2
    | _ => cases hkind
  | choice index =>
    cases value' with
    | choice index' =>
      simp only [wordText, equal, beq_iff_eq]
      constructor
      · intro he
        rw [Nat.toString_eq_ofList_toDigits, Nat.toString_eq_ofList_toDigits] at he
        have hnat := congrArg (Nat.ofDigitChars 10 · 0) (String.ofList_injective he)
        simp only [Nat.ofDigitChars_ten_toDigits] at hnat
        exact UInt64.toNat_inj.1 hnat
      · rintro rfl
        rfl
    | _ => cases hkind

theorem Setting.Value.plain_wordText {value : Value} (h : value.isFinite = true) :
    Text.Plain value.wordText.toList := by
  cases value with
  | boolean flag =>
    cases flag with
    | false => exact Text.plain_nat 0
    | true => exact Text.plain_nat 1
  | number x => exact Word.plain_number h
  | choice index => exact Text.plain_nat index.toNat

theorem Word.word_inj {letter letter' : Char} {value value' : String} :
    Word.word letter value = Word.word letter' value' ↔ letter = letter' ∧ value = value' := by
  rw [← String.toList_inj]
  simp [Word.word, String.toList_inj]

namespace Draft.Over

variable {op : Operation} {draft draft' : Draft} {place : Nat} {key : String} {d : Descriptor}
  {letter : Char}

theorem settings_snapshot (h : draft.Over op) :
    draft.snapshot.items.map (fun item => (item.key, item.descriptor)) = op.settings.entries := by
  rw [← h.schema, Draft.snapshot, List.map_map]
  rfl

/-- The setting of a place is found under its key. -/
theorem shown?_eq (h : draft.Over op) (hs : op.settings.entries[place]? = some (key, d)) :
    ∃ item, draft.snapshot.items[place]? = some item ∧ item.descriptor = d ∧
      draft.snapshot.shown? key =
        if draft.snapshot.includes item then some item.value else none := by
  rw [← h.settings_snapshot, List.getElem?_map] at hs
  obtain ⟨item, hitem, hsetting⟩ := Option.map_eq_some_iff.1 hs
  obtain ⟨rfl, rfl⟩ := Prod.mk.inj hsetting
  refine ⟨item, hitem, rfl, ?_⟩
  obtain ⟨e, he, rfl⟩ := List.mem_map.1 (List.mem_of_getElem? hitem)
  have hfind : draft.snapshot.find? e.1 = some (draft.item e) := by
    rw [Draft.find?_snapshot, Table.find?_eq_some.2 he]
    rfl
  rw [Snapshot.shown?, show (draft.item e).key = e.1 from rfl, hfind]
  rfl

theorem accepts_of_shown? (h : draft.Over op) {value : Value}
    (hs : op.settings.entries[place]? = some (key, d))
    (hv : draft.snapshot.shown? key = some value) : d.Accepts value := by
  obtain ⟨item, hitem, rfl, hshown⟩ := h.shown?_eq hs
  rw [hv] at hshown
  split at hshown
  · cases hshown
    exact (h.snapshot_item (List.mem_of_getElem? hitem)).2
  · cases hshown

theorem shown?_of_not_mem (h : draft.Over op) (hk : key ∉ op.settings.keys) :
    draft.snapshot.shown? key = none := by
  have hfind : draft.snapshot.find? key = none := by
    rw [Draft.find?_snapshot, Option.map_eq_none_iff]
    cases he : draft.entries.find? key with
    | none => rfl
    | some entry =>
      have hd := h.descriptor? key
      rw [Draft.descriptor?, he, Option.map_some] at hd
      exact absurd (List.mem_map.2 ⟨_, Table.find?_eq_some.1 hd.symm, rfl⟩) hk
  rw [Snapshot.shown?, hfind]
  rfl

/-- The word of a place, if its setting appears, is the letter before the value. -/
theorem wordAt?_eq (h : draft.Over op) (hw : op.WellFormed)
    (hs : op.settings.entries[place]? = some (key, d)) (hl : d.parameter = some letter) :
    Line.wordAt? draft.snapshot none place =
      (draft.snapshot.shown? key).map fun value => Word.word letter value.wordText := by
  obtain ⟨item, hitem, rfl, hshown⟩ := h.shown?_eq hs
  have hincludes := Draft.includes_eq_appears (h.closed hw) (List.mem_of_getElem? hitem)
  have hoffset : Line.offsetAt? draft.snapshot none place letter = none := by
    simp [Line.offsetAt?]
  rw [hshown, hincludes, Line.wordAt?, hitem, Option.bind_some, Line.wordOf?, hl]
  dsimp only
  rw [hoffset, Line.textOf_none]
  split <;> rfl

theorem wordAt?_of_length_le (h : draft.Over op) (hp : op.settings.entries.length ≤ place) :
    Line.wordAt? draft.snapshot none place = none := by
  have hlength : draft.snapshot.items.length = op.settings.entries.length := by
    rw [← h.settings_snapshot, List.length_map]
  rw [Line.wordAt?, List.getElem?_eq_none (by omega)]
  rfl

/-- Words stand at the same places with the same text if the same settings appear with equal
values. -/
theorem wordAt?_eq_iff (h : draft.Over op) (h' : draft'.Over op) (hw : op.WellFormed)
    (hop : op.Lettered) : (∀ place, Line.wordAt? draft.snapshot none place =
      Line.wordAt? draft'.snapshot none place) ↔ draft.snapshot.ShowsSame draft'.snapshot := by
  have hat : ∀ place key d, op.settings.entries[place]? = some (key, d) →
      (Line.wordAt? draft.snapshot none place = Line.wordAt? draft'.snapshot none place ↔
        (draft.snapshot.shown? key).isSome = (draft'.snapshot.shown? key).isSome ∧
        ∀ value value', draft.snapshot.shown? key = some value →
          draft'.snapshot.shown? key = some value' → value.equal value' = true) := by
    intro place key d hs
    obtain ⟨letter, hl⟩ := Option.ne_none_iff_exists'.1
      (hop.lettered _ (List.mem_of_getElem? hs))
    rw [h.wordAt?_eq hw hs hl, h'.wordAt?_eq hw hs hl]
    cases hv : draft.snapshot.shown? key with
    | none => cases draft'.snapshot.shown? key <;> simp
    | some value =>
      cases hv' : draft'.snapshot.shown? key with
      | none => simp
      | some value' =>
        have ha := h.accepts_of_shown? hs hv
        have ha' := h'.accepts_of_shown? hs hv'
        simp [Word.word_inj, Setting.Value.wordText_inj ha ha']
  constructor
  · intro hwords
    have hkey : ∀ key, (draft.snapshot.shown? key).isSome = (draft'.snapshot.shown? key).isSome ∧
        ∀ value value', draft.snapshot.shown? key = some value →
          draft'.snapshot.shown? key = some value' → value.equal value' = true := by
      intro key
      by_cases hk : key ∈ op.settings.keys
      · obtain ⟨⟨_, d⟩, he, rfl⟩ := List.mem_map.1 hk
        obtain ⟨place, hs⟩ := List.mem_iff_getElem?.1 he
        exact (hat place _ d hs).1 (hwords place)
      · simp [h.shown?_of_not_mem hk, h'.shown?_of_not_mem hk]
    exact ⟨fun key => (hkey key).1, fun key => (hkey key).2⟩
  · intro hsame place
    cases hs : op.settings.entries[place]? with
    | none =>
      have hle := List.getElem?_eq_none_iff.1 hs
      rw [h.wordAt?_of_length_le hle, h'.wordAt?_of_length_le hle]
    | some setting =>
      exact (hat place _ _ hs).2 ⟨hsame.keys setting.1, hsame.values setting.1⟩

/-- A word names its setting by its letter, so the words alone tell at which place each stands. -/
theorem wordAt?_eq_of_words (h : draft.Over op) (h' : draft'.Over op) (hop : op.Lettered)
    (hwords : (List.range draft.snapshot.items.length).filterMap
        (Line.wordAt? draft.snapshot none) =
      (List.range draft'.snapshot.items.length).filterMap
        (Line.wordAt? draft'.snapshot none)) {word : String}
    (hword : Line.wordAt? draft.snapshot none place = some word) :
    Line.wordAt? draft'.snapshot none place = some word := by
  have hmem : word ∈ (List.range draft'.snapshot.items.length).filterMap
      (Line.wordAt? draft'.snapshot none) := by
    rw [← hwords]
    exact List.mem_filterMap.2
      ⟨place, List.mem_range.2 (Line.lt_length_of_wordAt? hword), hword⟩
  obtain ⟨place', _, hword'⟩ := List.mem_filterMap.1 hmem
  obtain ⟨item, letter, hitem, hl, _, hspelled⟩ := Line.wordAt?_eq_some.1 hword
  obtain ⟨item', letter', hitem', hl', _, hspelled'⟩ := Line.wordAt?_eq_some.1 hword'
  have hletter : letter = letter' := (Word.word_inj.1 (hspelled.trans hspelled'.symm)).1
  have hparameter : ∀ {draft : Draft} {place : Nat} {item : Snapshot.Item}, draft.Over op →
      draft.snapshot.items[place]? = some item →
      (op.settings.entries.map (·.2.parameter))[place]? = some item.descriptor.parameter := by
    intro draft place item h hitem
    rw [← h.settings_snapshot, List.map_map, List.getElem?_map, hitem]
    rfl
  have hp := hparameter h hitem
  have hp' := hparameter h' hitem'
  rw [hl, hletter] at hp
  rw [hl'] at hp'
  obtain ⟨hlt, _⟩ := List.getElem?_eq_some_iff.1 hp
  obtain rfl : place = place' := (List.getElem?_inj hlt hop.distinct).1 (hp.trans hp'.symm)
  exact hword'

end Draft.Over

namespace Operation

variable {op op' : Operation} {values values' : List (String × Value)}

/-- The words of the line for some values in place of the defaults. -/
def words (op : Operation) (values : List (String × Value)) : List String :=
  Word.code op.code :: (List.range (op.holding values).snapshot.items.length).filterMap
    (Line.wordAt? (op.holding values).snapshot none)

theorem spelled_words (hw : op.WellFormed) (hop : op.Presentable)
    (ht : ∀ v ∈ values, op.Takes v.1 v.2) :
    ∀ word ∈ op.words values, Word.Spelled Text.Plain word := by
  have hover := over_holding hw ht
  refine List.forall_mem_cons.2 ⟨Line.spelled_code hop.code, ?_⟩
  intro word hword
  obtain ⟨place, _, hword⟩ := List.mem_filterMap.1 hword
  obtain ⟨item, letter, hitem, hl, _, rfl⟩ := Line.wordAt?_eq_some.1 hword
  obtain ⟨hd, haccepts⟩ := hover.snapshot_item (List.mem_of_getElem? hitem)
  have hletter := hop.letters _ (Table.find?_eq_some.1 hd)
  rw [hl] at hletter
  have hoffset : Line.offsetAt? (op.holding values).snapshot none place letter = none := by
    simp [Line.offsetAt?]
  rw [hoffset, Line.textOf_none]
  exact Word.spelled_word hletter (Setting.Value.plain_wordText haccepts.2)

theorem compile_eq_words (hw : op.WellFormed) (ht : ∀ v ∈ values, op.Takes v.1 v.2) :
    compile op.code (op.holding values).snapshot none = " ".intercalate (op.words values) :=
  Line.compile_eq_reference_of_appears
    (fun _ hi => Draft.includes_eq_appears ((over_holding hw ht).closed hw) hi) op.code none

/-- The words of an operation tell which settings appear and what they hold. -/
theorem words_eq_iff (hw : op.WellFormed) (hop : op.Lettered)
    (ht : ∀ v ∈ values, op.Takes v.1 v.2) (ht' : ∀ v ∈ values', op.Takes v.1 v.2) :
    op.words values = op.words values' ↔
      (op.holding values).snapshot.ShowsSame (op.holding values').snapshot := by
  have hover := over_holding hw ht
  have hover' := over_holding hw ht'
  rw [← hover.wordAt?_eq_iff hover' hw hop]
  constructor
  · intro hwords place
    have hrest := (List.cons.inj hwords).2
    apply Option.ext
    intro word
    exact ⟨hover.wordAt?_eq_of_words hover' hop hrest,
      hover'.wordAt?_eq_of_words hover hop hrest.symm⟩
  · intro hplaces
    have hlength : (op.holding values).snapshot.items.length =
        (op.holding values').snapshot.items.length := by
      have hsettings := hover.settings_snapshot.trans hover'.settings_snapshot.symm
      simpa using congrArg List.length hsettings
    rw [words, words, funext hplaces, hlength]

end Operation

/-- Two lines of standard operations are equal exactly if the operations are the same and the
same settings appear with equal values; so what is hidden shows in neither of them. -/
theorem compileOperation_eq_iff_showsSame {key key' line line' : String}
    {values values' : List (String × Value)} (h : compileOperation key values none = .ok line)
    (h' : compileOperation key' values' none = .ok line') : ∃ op op' s s',
      lookup key = .ok op ∧ overriddenSnapshot op values = .ok s ∧
      lookup key' = .ok op' ∧ overriddenSnapshot op' values' = .ok s' ∧
      (line = line' ↔ op = op' ∧ s.ShowsSame s') := by
  obtain ⟨op, hop, ht, rfl⟩ := compileOperation_eq_ok.1 h
  obtain ⟨op', hop', ht', rfl⟩ := compileOperation_eq_ok.1 h'
  have hw := lookup_wellFormed hop
  have hw' := lookup_wellFormed hop'
  refine ⟨op, op', _, _, hop, (overriddenSnapshot_eq_ok hw).2 ⟨ht, rfl⟩, hop',
    (overriddenSnapshot_eq_ok hw').2 ⟨ht', rfl⟩, ?_⟩
  rw [Operation.compile_eq_words hw ht, Operation.compile_eq_words hw' ht']
  constructor
  · intro hline
    have hwords := words_of_line (List.cons_ne_nil _ _) (List.cons_ne_nil _ _)
      (Operation.spelled_words hw (lookup_presentable hop) ht)
      (Operation.spelled_words hw' (lookup_presentable hop') ht') hline
    have hcode := (Word.number_inj (lookup_presentable hop).code (lookup_presentable hop').code).1
      (Word.word_inj.1 (List.cons.inj hwords).1).2
    obtain rfl := key_of_code hop hop' hcode
    obtain rfl : op = op' := Except.ok.inj (hop.symm.trans hop')
    exact ⟨rfl, (Operation.words_eq_iff hw (lookup_lettered hop) ht ht').1 hwords⟩
  · rintro ⟨rfl, hsame⟩
    rw [(Operation.words_eq_iff hw (lookup_lettered hop) ht ht').2 hsame]

/-- A quick probe of a web hides its length; the two zeros are the same depth. -/
theorem compileOperation_eq_iff_showsSame_web :
    compileOperation "web" [("length", .number 40), ("depth", .number (-0))] none =
      .ok "G6504.1 Q1 N0 H10 Z0 T10 O2" ∧
    compileOperation "web" [("depth", .number 0)] none = .ok "G6504.1 Q1 N0 H10 Z0 T10 O2" ∧
    ∃ op s s', lookup "web" = .ok op ∧
      overriddenSnapshot op [("length", .number 40), ("depth", .number (-0))] = .ok s ∧
      overriddenSnapshot op [("depth", .number 0)] = .ok s' ∧ s.ShowsSame s' := by
  have h : compileOperation "web" [("length", .number 40), ("depth", .number (-0))] none =
      .ok "G6504.1 Q1 N0 H10 Z0 T10 O2" := by decide +kernel
  have h' : compileOperation "web" [("depth", .number 0)] none =
      .ok "G6504.1 Q1 N0 H10 Z0 T10 O2" := by decide +kernel
  obtain ⟨op, op', s, s', hop, hs, _, hs', heq⟩ := compileOperation_eq_iff_showsSame h h'
  obtain ⟨rfl, hsame⟩ := heq.1 rfl
  exact ⟨h, h', op, s, s', hop, hs, hs', hsame⟩

end ProbeCycle
