import Mathlib.Data.List.Chain
import ProbeCycle.Proofs.Content
import ProbeCycle.Proofs.Limits.Exact

namespace ProbeCycle

open Setting (Descriptor Value)

namespace Text

/-- What stands between the letters of a line: blanks and numerals. -/
def isFiller (c : Char) : Bool := c == ' ' || isNumeric c

/-- No two letters stand next to each other. -/
def Scattered (cs : List Char) : Prop :=
  List.IsChain (fun a b => isFiller a = true ∨ isFiller b = true) cs

/-- One of the words for numbers that are not finite comes up. -/
def NamesNonFinite (cs : List Char) : Prop :=
  "NaN".toList <:+: cs ∨ "inf".toList <:+: cs

variable {cs ds : List Char} {words : List String} {word : String}

theorem NamesNonFinite.mono (h : NamesNonFinite cs) (hpart : cs <:+: ds) : NamesNonFinite ds :=
  h.imp (·.trans hpart) (·.trans hpart)

theorem Scattered.not_namesNonFinite (h : Scattered cs) : ¬ NamesNonFinite cs := by
  have hletters : ∀ {a b : Char} {rest : List Char}, isFiller a = false → isFiller b = false →
      ¬ (a :: b :: rest) <:+: cs := by
    intro a b rest ha hb hpart
    have hchain := List.IsChain.infix h hpart
    have hab := (List.isChain_cons_cons.1 hchain).1
    simp [ha, hb] at hab
  rintro (hnan | hinf)
  · exact hletters rfl rfl hnan
  · exact hletters rfl rfl hinf

theorem Plain.scattered_cons (h : Plain cs) (letter : Char) : Scattered (letter :: cs) := by
  have hfiller : ∀ c ∈ cs, isFiller c = true := fun c hc => by simp [isFiller, h.isNumeric c hc]
  have hcs : cs.Pairwise fun a b => isFiller a = true ∨ isFiller b = true :=
    List.pairwise_of_forall_mem_list fun a ha _ _ => Or.inl (hfiller a ha)
  have hletter : ∀ c ∈ cs, isFiller letter = true ∨ isFiller c = true :=
    fun c hc => Or.inr (hfiller c hc)
  exact List.Pairwise.isChain (hcs.cons hletter)

theorem scattered_intercalate (h : ∀ word ∈ words, Scattered word.toList) :
    Scattered (" ".intercalate words).toList := by
  rw [String.toList_intercalate]
  induction words with
  | nil => exact List.isChain_nil
  | cons word rest ih =>
    obtain ⟨hword, hrest⟩ := List.forall_mem_cons.1 h
    cases rest with
    | nil => simpa using hword
    | cons next rest =>
      rw [List.map_cons, List.map_cons, List.intercalate_cons_cons, ← List.map_cons]
      have hblank : isFiller ' ' = true := rfl
      have htail : Scattered (" ".toList ++
          " ".toList.intercalate ((next :: rest).map String.toList)) :=
        List.IsChain.append (List.isChain_singleton ' ') (ih hrest) (by simp [hblank])
      rw [List.append_assoc]
      exact List.IsChain.append hword htail (by simp [hblank])

theorem infix_intercalate (h : word ∈ words) :
    word.toList <:+: (" ".intercalate words).toList := by
  rw [String.toList_intercalate]
  induction words with
  | nil => cases h
  | cons first rest ih =>
    cases rest with
    | nil =>
      obtain rfl := List.mem_singleton.1 h
      simp
    | cons next rest =>
      rw [List.map_cons, List.map_cons, List.intercalate_cons_cons, ← List.map_cons]
      rcases List.mem_cons.1 h with rfl | h
      · exact (List.prefix_append _ _).isInfix.trans (List.prefix_append _ _).isInfix
      · exact (ih h).trans (List.suffix_append _ _).isInfix

end Text

open Text (NamesNonFinite)

theorem Word.namesNonFinite_number {x : Binary64} (h : x.isFinite = false) :
    NamesNonFinite (Word.number x).toList := by
  by_cases hnan : x = .nan
  · subst hnan
    exact Or.inl (by decide +kernel)
  · rcases Word.infinite_number h hnan with he | he
    · rw [he]
      exact Or.inr (by decide)
    · rw [he]
      exact Or.inr (by decide)

theorem Setting.Value.namesNonFinite_wordText {value : Value} (h : value.isFinite = false) :
    NamesNonFinite value.wordText.toList := by
  cases value with
  | number x => exact Word.namesNonFinite_number h
  | _ => cases h

namespace Line

variable {s : Snapshot} {code : Binary64} {modifiers : Option Modifiers}

/-- Nothing is added to any setting. -/
def Unmodified (modifiers : Option Modifiers) : Prop :=
  ∀ letter, modifiers.bind (·.get? letter) = none

theorem Unmodified.textOf_offsetAt? (h : Unmodified modifiers) (s : Snapshot) (place : Nat)
    (letter : Char) (item : Snapshot.Item) :
    textOf item (offsetAt? s modifiers place letter) = item.value.wordText := by
  have hoffset : offsetAt? s modifiers place letter = none := by
    rw [offsetAt?, h letter, ite_self]
  rw [hoffset, textOf_none]

/-- Only settings that appear put a word for a number that is not finite into the line. -/
theorem namesNonFinite_reference (hcode : code.isFinite = true) (hm : Unmodified modifiers) :
    NamesNonFinite (reference code s modifiers).toList ↔
      ∃ item ∈ s.items, s.appears item = true ∧ item.descriptor.parameter ≠ none ∧
        item.value.isFinite = false := by
  constructor
  · intro hnames
    by_contra hno
    refine (Text.scattered_intercalate ?_).not_namesNonFinite hnames
    refine List.forall_mem_cons.2 ⟨?_, ?_⟩
    · simpa [Word.code, Word.word] using (Word.plain_number hcode).scattered_cons 'G'
    · intro word hword
      obtain ⟨place, _, hword⟩ := List.mem_filterMap.1 hword
      obtain ⟨item, letter, hitem, hl, happears, rfl⟩ := wordAt?_eq_some.1 hword
      have hfinite : item.value.isFinite = true := by
        by_contra hinf
        exact hno ⟨item, List.mem_of_getElem? hitem, happears, by simp [hl],
          Bool.eq_false_iff.2 hinf⟩
      rw [hm.textOf_offsetAt?]
      simpa [Word.word] using (Setting.Value.plain_wordText hfinite).scattered_cons letter
  · rintro ⟨item, hmem, happears, hl, hinf⟩
    obtain ⟨place, hitem⟩ := List.mem_iff_getElem?.1 hmem
    obtain ⟨letter, hl⟩ := Option.ne_none_iff_exists'.1 hl
    have hword : wordAt? s modifiers place = some (Word.word letter item.value.wordText) :=
      wordAt?_eq_some.2 ⟨item, letter, hitem, hl, happears, by rw [hm.textOf_offsetAt?]⟩
    have hline : Word.word letter item.value.wordText ∈
        Word.code code :: (List.range s.items.length).filterMap (wordAt? s modifiers) :=
      List.mem_cons_of_mem _ (List.mem_filterMap.2
        ⟨place, List.mem_range.2 (lt_length_of_wordAt? hword), hword⟩)
    have hvalue : item.value.wordText.toList <:+:
        (Word.word letter item.value.wordText).toList := by
      simpa [Word.word] using (List.suffix_cons letter item.value.wordText.toList).isInfix
    exact ((Setting.Value.namesNonFinite_wordText hinf).mono hvalue).mono
      (Text.infix_intercalate hline)

end Line

/-- The setting whose default a change puts in without a check. -/
def Change.unchecked? : Change → Option Descriptor
  | .add _ descriptor => some descriptor
  | _ => none

namespace Draft

/-- The value is the default of its setting and not finite. -/
def Entry.BadDefault (entry : Entry) : Prop :=
  entry.value = entry.descriptor.default ∧ entry.value.isFinite = false

/-- The setting accepts its value, or holds a bad default and is one of the given settings. -/
def Entry.AcceptedOrFrom (unchecked : List Descriptor) (entry : Entry) : Prop :=
  entry.descriptor.Accepts entry.value ∨ entry.BadDefault ∧ entry.descriptor ∈ unchecked

theorem Entry.acceptedOrFrom_default {unchecked : List Descriptor} {d : Descriptor}
    (h : d ∈ unchecked) : Entry.AcceptedOrFrom unchecked ⟨d, d.default⟩ := by
  cases hd : d.default.isFinite with
  | true => exact Or.inl ⟨d.kind_default, hd⟩
  | false => exact Or.inr ⟨⟨rfl, hd⟩, h⟩

theorem stable_acceptedOrFrom (unchecked : List Descriptor) :
    Stable (Entry.AcceptedOrFrom unchecked) :=
  fun _ _ _ _ ha => Or.inl ha

/-- The settings whose defaults go into a draft without a check. -/
def unchecked (origin : Origin) (changes : List Change) : List Descriptor :=
  origin.descriptors ++ changes.filterMap Change.unchecked?

theorem all_acceptedOrFrom (origin : Origin) (changes : List Change) :
    (origin.start.undergo changes).All (Entry.AcceptedOrFrom (unchecked origin changes)) := by
  have hstart : origin.start.All (Entry.AcceptedOrFrom (unchecked origin changes)) :=
    Origin.all_start (stable_acceptedOrFrom _) fun d hd =>
      Entry.acceptedOrFrom_default (List.mem_append_left _ hd)
  apply hstart.undergo (stable_acceptedOrFrom _)
  intro change hchange key entry hput
  cases hput with
  | add _ d =>
    have hd : d ∈ changes.filterMap Change.unchecked? :=
      List.mem_filterMap.2 ⟨_, hchange, rfl⟩
    exact Entry.acceptedOrFrom_default (List.mem_append_right _ hd)
  | addWith _ accepts => exact Or.inl accepts

theorem Entry.BadDefault.not_accepts {entry : Entry} (h : entry.BadDefault) :
    ¬ entry.descriptor.Accepts entry.value := by
  intro ha
  cases h.2.symm.trans ha.2

/-- Whatever is done to a draft, each setting accepts the value that it holds, unless that is a
default that came in unchecked and is infinite or `nan`. Where no such default is put in, and none
is with written settings, all values are accepted and so all numbers are finite. A line to which
nothing is added names a number that is not finite only for a visible setting with such a default,
and then it always does. -/
theorem accepts_unless_badDefault (origin : Origin) (changes : List Change) :
    (∀ key entry, (origin.start.undergo changes).entries.find? key = some entry →
      (entry.descriptor.accept key entry.value = .ok entry.value ↔ ¬ entry.BadDefault) ∧
      (entry.BadDefault → entry.descriptor ∈ unchecked origin changes)) ∧
    ((∀ d ∈ unchecked origin changes, d.Written ∨ d.default.isFinite = true) →
      ∀ key entry, (origin.start.undergo changes).entries.find? key = some entry →
        entry.descriptor.accept key entry.value = .ok entry.value ∧
        entry.value.isFinite = true) ∧
    ∀ s code modifiers, (origin.start.undergo changes).build = .ok s → code.isFinite = true →
      Line.Unmodified modifiers →
        (NamesNonFinite (compile code s modifiers).toList ↔
          ∃ item ∈ s.items, s.includes item = true ∧ item.descriptor.parameter ≠ none ∧
            Entry.BadDefault ⟨item.descriptor, item.value⟩) := by
  have hall := all_acceptedOrFrom origin changes
  refine ⟨?_, ?_, ?_⟩
  · intro key entry hentry
    have ha : entry.descriptor.accept key entry.value = .ok entry.value ↔
        entry.descriptor.Accepts entry.value :=
      Descriptor.accept_eq_ok.trans (and_iff_left rfl)
    rw [ha]
    rcases hall key entry hentry with haccepts | ⟨hbad, hfrom⟩
    · exact ⟨iff_of_true haccepts fun hbad => hbad.not_accepts haccepts,
        fun hbad => absurd haccepts hbad.not_accepts⟩
    · exact ⟨iff_of_false hbad.not_accepts fun hgood => hgood hbad, fun _ => hfrom⟩
  · intro hfinite key entry hentry
    rcases hall key entry hentry with haccepts | ⟨hbad, hfrom⟩
    · exact ⟨Descriptor.accept_eq_ok.2 ⟨haccepts, rfl⟩, haccepts.2⟩
    · have hdefault : entry.descriptor.default.isFinite = true := by
        rcases hfinite entry.descriptor hfrom with hwritten | hfinite
        · exact hwritten.accepts_default.2
        · exact hfinite
      rw [← hbad.1, hbad.2] at hdefault
      cases hdefault
  · intro s code modifiers hbuild hcode hm
    obtain ⟨hclosed, rfl⟩ := build_eq_ok.1 hbuild
    rw [Line.compile_eq_reference code _ _ modifiers hbuild,
      Line.namesNonFinite_reference hcode hm]
    refine exists_congr fun item => and_congr_right fun hi => ?_
    have hitem : Entry.AcceptedOrFrom (unchecked origin changes) ⟨item.descriptor, item.value⟩ :=
      hall.of_mem_items hbuild hi
    have hbad : item.value.isFinite = false ↔
        Entry.BadDefault ⟨item.descriptor, item.value⟩ := by
      refine ⟨fun hinf => ?_, fun hbad => hbad.2⟩
      rcases hitem with haccepts | ⟨hbad, _⟩
      · cases hinf.symm.trans haccepts.2
      · exact hbad
    rw [includes_eq_appears hclosed hi, hbad]

/-- A height that is not known beforehand. -/
def height : Descriptor :=
  { Descriptor.number "Height" "" .nan with parameter := some 'H' }

/-- A setting that is added with a value is checked, and so is every later value; the default that
a setting is added with is not. -/
def unknownHeights : List Change :=
  [.addWith "clearance" height (.number 5), .addWith "refused" height (.number .nan),
    .add "height" height, .setText "height" "inf"]

theorem accepts_unless_badDefault_height :
    let draft := (Origin.empty "custom").start.undergo unknownHeights
    (∃ entry, draft.entries.find? "height" = some entry ∧ entry.BadDefault ∧
      entry.descriptor ∈ unchecked (.empty "custom") unknownHeights) ∧
    (∀ key entry, ((Origin.operation Catalog.pocket).start.undergo overstepped).entries.find? key =
      some entry → entry.value.isFinite = true) ∧
    draft.build = .ok draft.snapshot ∧ compile 1 draft.snapshot none = "G1 H5 HNaN" ∧
    NamesNonFinite (compile 1 draft.snapshot none).toList := by
  intro draft
  have h := accepts_unless_badDefault (.empty "custom") unknownHeights
  have hheight : draft.entries.find? "height" = some ⟨height, .number .nan⟩ := by decide +kernel
  have hbad : Entry.BadDefault ⟨height, .number .nan⟩ := ⟨rfl, rfl⟩
  have hpocket : ∀ d ∈ unchecked (.operation Catalog.pocket) overstepped,
      d.Written ∨ d.default.isFinite = true := by
    refine List.forall_mem_append.2 ⟨fun d hd => Or.inl ?_, fun d hd => Or.inr ?_⟩
    · exact Origin.written (rfl : lookup "pocket" = .ok Catalog.pocket) d hd
    · obtain rfl : d = tool := List.mem_singleton.1 hd
      rfl
  have hbuild : draft.build = .ok draft.snapshot :=
    build_eq_ok.2 ⟨(by decide +kernel : Setting.Closed draft.schema), rfl⟩
  refine ⟨⟨_, hheight, hbad, (h.1 _ _ hheight).2 hbad⟩, ?_, hbuild, by decide +kernel, ?_⟩
  · intro key entry hentry
    have hp := accepts_unless_badDefault (.operation Catalog.pocket) overstepped
    exact (hp.2.1 hpocket key entry hentry).2
  · refine (h.2.2 _ 1 none hbuild (by decide +kernel) fun _ => rfl).2 ?_
    have hitem : ⟨"height", height, .number .nan, none⟩ ∈ draft.snapshot.items := by
      decide +kernel
    exact ⟨_, hitem, rfl, by decide, hbad⟩

/-- A setting of a reached draft does not accept what it holds, and the line shows it. -/
theorem add_stores_unaccepted :
    let draft := (Origin.empty "custom").start.undergo [.add "height" height]
    draft.entries.find? "height" = some ⟨height, .number .nan⟩ ∧
    height.accept "height" (.number .nan) = .error (.invalidValue "height" "NaN") ∧
    draft.build = .ok draft.snapshot ∧ compile 1 draft.snapshot none = "G1 HNaN" := by
  decide +kernel

end Draft

end ProbeCycle
