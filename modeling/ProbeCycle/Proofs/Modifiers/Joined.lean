import ProbeCycle.CommandLine.Run
import ProbeCycle.Proofs.Modifiers
import ProbeCycle.Proofs.Steps
import ProbeCycle.Proofs.Text
import ProbeCycle.Proofs.Text.Trim

namespace ProbeCycle.Modifiers

variable {m n : Modifiers} {entries : List String}

/-- All offsets of both; where both have one for a letter, that of `n`. -/
def overriddenBy (m n : Modifiers) : Modifiers :=
  n.entries.foldl (fun m (letter, offset) => m.put letter offset) m

theorem lookup_putAll (m : Modifiers) {entries : List (Char × Binary64)}
    (h : (entries.map Prod.fst).Nodup) (c : Char) :
    (entries.foldl (fun m (letter, offset) => m.put letter offset) m).entries.lookup c =
      (entries.lookup c).or (m.entries.lookup c) := by
  induction entries generalizing m with
  | nil => rfl
  | cons entry rest ih =>
    obtain ⟨letter, offset⟩ := entry
    obtain ⟨hletter, hrest⟩ := List.nodup_cons.1 h
    rw [List.foldl_cons, ih _ hrest, lookup_put]
    by_cases hc : c = letter
    · have hlater : rest.lookup letter = none := by
        rw [List.lookup_eq_none_iff]
        intro e he
        have hne : letter ≠ e.1 := by
          rintro rfl
          exact hletter (List.mem_map.2 ⟨e, he, rfl⟩)
        simpa using hne
      simp [hc, hlater]
    · have hb : (c == letter) = false := by simpa using hc
      simp [hc, hb, List.lookup_cons]

theorem lookup_overriddenBy (m n : Modifiers) (c : Char) :
    (m.overriddenBy n).entries.lookup c = (n.entries.lookup c).or (m.entries.lookup c) :=
  lookup_putAll m (n.sorted.imp fun hlt => Char.ne_of_lt hlt) c

theorem ofList_append (first second : List (Char × Binary64)) :
    ofList (first ++ second) = (ofList first).overriddenBy (ofList second) := by
  apply eq_of_lookup
  intro c
  have hempty : (∅ : Modifiers).entries.lookup c = none := rfl
  have hboth : ofList (first ++ second) = (ofList first).insertAll second := List.foldl_append
  have hsecond : ofList second = insertAll ∅ second := rfl
  rw [hboth, lookup_overriddenBy, lookup_insertAll, hsecond, lookup_insertAll, hempty,
    Option.or_none]

/-- The entries in a text, without the blanks around them. -/
def parts (cs : List Char) : List (List Char) :=
  ((Text.splitAll ',' cs).map Text.trim).filter (!·.isEmpty)

theorem parse_eq (input : String) : parse input = do
    let entries ← (parts input.toList).mapM fun part => parseEntry (String.ofList part)
    return ofList entries := rfl

theorem parts_append (before after : List Char) :
    parts (before ++ ',' :: after) = parts before ++ parts after := by
  simp only [parts, Text.splitAll_append, List.map_append, List.filter_append]

theorem parse_append (s t : String) : parse (s ++ "," ++ t) = do
    let m ← parse s
    let n ← parse t
    return m.overriddenBy n := by
  have htext : (s ++ "," ++ t).toList = s.toList ++ ',' :: t.toList := by simp
  simp only [parse_eq, htext, parts_append, List.mapM_append]
  cases (parts s.toList).mapM fun part => parseEntry (String.ofList part) with
  | error e => rfl
  | ok first =>
    cases (parts t.toList).mapM fun part => parseEntry (String.ofList part) with
    | error e => rfl
    | ok second => exact congrArg Except.ok (ofList_append first second)

/-- Blanks around an entry are blanks around its letter and around its offset. -/
theorem entry?_trim (cs : List Char) : entry? (Text.trim cs) = entry? cs := by
  obtain ⟨before, after, hbefore, hafter, hcs⟩ := Text.exists_trim cs
  have hblank : ∀ {blanks : List Char}, Text.Blank blanks → '=' ∉ blanks :=
    fun h hm => absurd (h '=' hm) (by decide)
  cases hsplit : Text.splitFirst? '=' (Text.trim cs) with
  | none =>
    have hnone : Text.splitFirst? '=' cs = none := by
      rw [Text.splitFirst?_eq_none] at hsplit ⊢
      rw [hcs]
      simp [hsplit, hblank hbefore, hblank hafter]
    unfold entry?
    rw [hsplit, hnone]
  | some sides =>
    obtain ⟨letter, offset⟩ := sides
    obtain ⟨hsides, hfirst⟩ := Text.splitFirst?_eq_some.1 hsplit
    have hsome : Text.splitFirst? '=' cs = some (before ++ letter, offset ++ after) := by
      apply Text.splitFirst?_eq_some.2
      refine ⟨?_, by simp [hfirst, hblank hbefore]⟩
      rw [hcs, hsides]
      simp
    unfold entry?
    rw [hsplit, hsome]
    simp only [Option.bind_eq_bind, Option.bind_some, Text.trim_prepend hbefore,
      Text.trim_extend hafter]

/-- What is told of a bad entry, without the blanks around the entry. -/
def trimmed : ProbeError → ProbeError
  | .invalidOffset input => .invalidOffset (String.ofList (Text.trim input.toList))
  | e => e

theorem parseEntry_trim (entry : String) :
    parseEntry (String.ofList (Text.trim entry.toList)) = (parseEntry entry).mapError trimmed := by
  rw [parseEntry, parseEntry, String.toList_ofList, entry?_trim]
  cases entry? entry.toList <;> rfl

/-- Entries that can be told apart when they stand in one text. -/
def Separate (entries : List String) : Prop :=
  ∀ entry ∈ entries, ',' ∉ entry.toList ∧ ¬ Text.Blank entry.toList

instance (entries : List String) : Decidable (Separate entries) :=
  inferInstanceAs (Decidable (∀ entry ∈ entries, ',' ∉ entry.toList ∧ ¬ Text.Blank entry.toList))

theorem parts_intercalate (h : Separate entries) :
    parts (",".intercalate entries).toList = entries.map fun entry => Text.trim entry.toList := by
  cases entries with
  | nil => rfl
  | cons first rest =>
    have hcommas : ∀ part ∈ (first :: rest).map String.toList, ',' ∉ part := by
      intro part hpart
      obtain ⟨entry, hentry, rfl⟩ := List.mem_map.1 hpart
      exact (h entry hentry).1
    have hne : (first :: rest).map String.toList ≠ [] := by simp
    have hcomma : ",".toList = [','] := rfl
    rw [parts, String.toList_intercalate, hcomma, Text.splitAll_intercalate hne hcommas,
      List.map_map, List.filter_eq_self.2]
    · rfl
    · intro part hpart
      obtain ⟨entry, hentry, rfl⟩ := List.mem_map.1 hpart
      simpa [Text.trim_eq_nil] using (h entry hentry).2

theorem parse_intercalate (h : Separate entries) : parse (",".intercalate entries) =
    ((entries.mapM parseEntry).map ofList).mapError trimmed := by
  have hentry : (fun part => parseEntry (String.ofList part)) ∘
      (fun entry : String => Text.trim entry.toList) =
        fun entry => (parseEntry entry).mapError trimmed := by
    funext entry
    rw [Function.comp_apply, parseEntry_trim]
  rw [parse_eq, parts_intercalate h, List.mapM_map, hentry, Steps.mapM_mapError]
  cases entries.mapM parseEntry <;> rfl

theorem exists_parse_intercalate (h : Separate entries) :
    (∃ m, parse (",".intercalate entries) = .ok m) ↔
      ∀ entry ∈ entries, ∃ e, parseEntry entry = .ok e := by
  rw [parse_intercalate h, ← Steps.forall₂_exists]
  simp only [← Steps.mapM_eq_ok]
  cases entries.mapM parseEntry <;> simp [Except.map, Except.mapError]

/-- The offsets of a command are those of its entries in one text. -/
theorem parse_of_prepare (h : Separate entries) {config : Config}
    {request : CommandLine.CompileRequest} (hentries : request.modifiers = entries)
    {draft : Draft} {s : Snapshot}
    (hprepare : CommandLine.prepare config request draft = .ok (s, m)) :
    parse (",".intercalate entries) = .ok m := by
  simp only [CommandLine.prepare, Steps.bind_eq_ok, Steps.check_eq_ok, Steps.mapError_eq_ok,
    hentries] at hprepare
  obtain ⟨_, _, _, _, _, read, hread, hm⟩ := hprepare
  cases hm
  rw [parse_intercalate h, hread]
  rfl

/-- A comma lays the offsets of the second text over those of the first, unless one of the two
cannot be read; and entries in one text come to what they come to one by one. -/
theorem parse_joined (s t : String) (entries : List String) :
    parse (s ++ "," ++ t) = (do
      let m ← parse s
      let n ← parse t
      return m.overriddenBy n) ∧
    (∀ (m n : Modifiers) letter, (m.overriddenBy n).entries.lookup letter =
      (n.entries.lookup letter).or (m.entries.lookup letter)) ∧
    (Separate entries →
      ((∃ m, parse (",".intercalate entries) = .ok m) ↔
        ∀ entry ∈ entries, ∃ e, parseEntry entry = .ok e) ∧
      parse (",".intercalate entries) =
        ((entries.mapM parseEntry).map ofList).mapError trimmed ∧
      ∀ config request draft snapshot m, request.modifiers = entries →
        CommandLine.prepare config request draft = .ok (snapshot, m) →
        parse (",".intercalate entries) = .ok m) := by
  refine ⟨parse_append s t, lookup_overriddenBy, ?_⟩
  intro h
  refine ⟨exists_parse_intercalate h, parse_intercalate h, ?_⟩
  intro config request draft snapshot m hentries hprepare
  exact parse_of_prepare h hentries hprepare

theorem parse_joined_typed :
    parse ("z=1, X=2" ++ "," ++ ", Z = 3 ,") = .ok (ofList [('X', 2), ('Z', 3)]) ∧
    Separate [" z=1", "X=2 ", "Z=-1e999 ", "Y"] ∧
    parse (",".intercalate [" z=1", "X=2 ", "Z=-1e999 ", "Y"]) =
      .error (.invalidOffset "Z=-1e999") := by
  refine ⟨?_, by decide +kernel, ?_⟩
  · rw [(parse_joined "z=1, X=2" ", Z = 3 ," []).1]
    decide +kernel
  · rw [((parse_joined "" "" [" z=1", "X=2 ", "Z=-1e999 ", "Y"]).2.2 (by decide +kernel)).2.1]
    decide +kernel

end ProbeCycle.Modifiers
