import Mathlib.Data.List.Basic
import ProbeCycle.Modifiers

namespace ProbeCycle.Modifiers

instance : DecidableEq Modifiers := fun m n =>
  if h : m.entries = n.entries then isTrue (ext h) else isFalse fun e => h (e ▸ rfl)

private theorem lookup_place (letter c : Char) (offset : Binary64)
    (entries : List (Char × Binary64)) : (place letter offset entries).lookup c =
      if c = letter then some offset else entries.lookup c := by
  induction entries with
  | nil => by_cases h : c = letter <;> simp [place, h]
  | cons entry rest ih =>
    obtain ⟨d, o⟩ := entry
    unfold place
    split
    · by_cases h : c = letter
      · simp [h]
      · have hb : (c == letter) = false := by simpa using h
        simp [h, hb, List.lookup_cons]
    · rename_i hlt
      split
      · rename_i hgt
        rw [List.lookup_cons, ih]
        by_cases hd : c = d
        · have hne : d ≠ letter := by
            intro e
            exact Char.lt_irrefl d (e ▸ hgt)
          simp [hd, hne]
        · have hb : (c == d) = false := by simpa using hd
          simp [hb, List.lookup_cons]
      · rename_i hngt
        have he : letter = d := Char.le_antisymm (Char.not_lt.1 hngt) (Char.not_lt.1 hlt)
        subst he
        by_cases h : c = letter
        · simp [h]
        · have hb : (c == letter) = false := by simpa using h
          simp [h, hb, List.lookup_cons]

theorem lookup_put (m : Modifiers) (letter c : Char) (offset : Binary64) :
    (m.put letter offset).entries.lookup c =
      if c = letter then some offset else m.entries.lookup c :=
  lookup_place letter c offset m.entries

theorem lookup_eq_some {m : Modifiers} {c : Char} {offset : Binary64} :
    m.entries.lookup c = some offset ↔ (c, offset) ∈ m.entries := by
  rw [List.lookup_eq_some_iff]
  constructor
  · intro h
    obtain ⟨before, after, hsplit, _⟩ := h
    simp [hsplit]
  · intro h
    obtain ⟨before, after, hsplit⟩ := List.append_of_mem h
    refine ⟨before, after, hsplit, ?_⟩
    intro e he
    have hsorted := m.sorted
    rw [hsplit, List.map_append, List.map_cons, List.pairwise_append] at hsorted
    have hlt : e.1 < c := hsorted.2.2 e.1 (List.mem_map_of_mem he) c List.mem_cons_self
    simpa using fun hc : c = e.1 => Char.lt_irrefl c (hc ▸ hlt)

theorem mem_letters {m : Modifiers} {c : Char} :
    c ∈ m.letters ↔ (m.entries.lookup c).isSome = true := by
  simp [Option.isSome_iff_exists, lookup_eq_some, letters]

/-- The order of the letters leaves no choice but in what is stored. -/
theorem eq_of_lookup {m n : Modifiers} (h : ∀ c, m.entries.lookup c = n.entries.lookup c) :
    m = n := by
  have hsorted : ∀ k : Modifiers, k.entries.Pairwise fun e e' => e.1 < e'.1 :=
    fun k => List.pairwise_map.1 k.sorted
  have hnodup : ∀ k : Modifiers, k.entries.Nodup := by
    intro k
    refine (hsorted k).imp ?_
    rintro e _ hlt rfl
    exact Char.lt_irrefl e.1 hlt
  have hmem : ∀ e, e ∈ m.entries ↔ e ∈ n.entries := by
    intro e
    rw [← lookup_eq_some, ← lookup_eq_some, h]
  apply ext
  refine ((List.perm_ext_iff_of_nodup (hnodup m) (hnodup n)).2 hmem).eq_of_pairwise ?_
    (hsorted m) (hsorted n)
  exact fun _ _ _ _ hlt hgt => absurd (Char.lt_trans hlt hgt) (Char.lt_irrefl _)

/-- Letters count without regard to case, and of several offsets for a letter the last one stands.
-/
theorem get?_insert (m : Modifiers) (c letter : Char) (offset : Binary64) :
    (m.insert c offset).get? letter =
      if letter.toUpper = c.toUpper then some offset else m.get? letter :=
  lookup_put m c.toUpper letter.toUpper offset

/-- More offsets one after the other. -/
def insertAll (m : Modifiers) (entries : List (Char × Binary64)) : Modifiers :=
  entries.foldl (fun m (letter, offset) => m.insert letter offset) m

theorem lookup_insertAll (m : Modifiers) (entries : List (Char × Binary64)) (c : Char) :
    (m.insertAll entries).entries.lookup c =
      ((entries.reverse.find? fun e => e.1.toUpper == c).map Prod.snd).or
        (m.entries.lookup c) := by
  induction entries generalizing m with
  | nil => simp [insertAll]
  | cons entry rest ih =>
    obtain ⟨letter, offset⟩ := entry
    have hrest : m.insertAll ((letter, offset) :: rest) =
        (m.insert letter offset).insertAll rest := rfl
    rw [hrest, ih, insert, lookup_put, List.reverse_cons, List.find?_append]
    cases rest.reverse.find? fun e => e.1.toUpper == c with
    | some later => simp
    | none =>
      by_cases h : c = letter.toUpper
      · simp [h]
      · have hb : (letter.toUpper == c) = false := by simpa using fun e => h e.symm
        simp [h, hb]

theorem get?_insertAll (m : Modifiers) (entries : List (Char × Binary64)) (letter : Char) :
    (m.insertAll entries).get? letter =
      ((entries.reverse.find? fun e => e.1.toUpper == letter.toUpper).map Prod.snd).or
        (m.get? letter) :=
  lookup_insertAll m entries letter.toUpper

theorem get?_ofList (entries : List (Char × Binary64)) (letter : Char) :
    (ofList entries).get? letter =
      (entries.reverse.find? fun e => e.1.toUpper == letter.toUpper).map Prod.snd := by
  have hempty : (∅ : Modifiers).get? letter = none := rfl
  have h := get?_insertAll ∅ entries letter
  rw [hempty, Option.or_none] at h
  exact h

end ProbeCycle.Modifiers
