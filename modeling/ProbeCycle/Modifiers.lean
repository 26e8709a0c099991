import ProbeCycle.Error
import ProbeCycle.Text

namespace ProbeCycle

/-- Offsets for address letters, which turn the number of a setting into a coordinate: at most one
for each letter, in the order of the letters. -/
structure Modifiers where
  entries : List (Char × Binary64)
  sorted : (entries.map Prod.fst).Pairwise (· < ·)

namespace Modifiers

@[ext] theorem ext {m n : Modifiers} (h : m.entries = n.entries) : m = n := by
  cases m
  cases n
  congr

def empty : Modifiers := ⟨[], List.Pairwise.nil⟩

instance : EmptyCollection Modifiers := ⟨empty⟩

def letters (m : Modifiers) : List Char := m.entries.map Prod.fst

def size (m : Modifiers) : Nat := m.entries.length

def isEmpty (m : Modifiers) : Bool := m.entries.isEmpty

def place (letter : Char) (offset : Binary64) : List (Char × Binary64) → List (Char × Binary64)
  | [] => [(letter, offset)]
  | (c, o) :: rest =>
    if letter < c then (letter, offset) :: (c, o) :: rest
    else if c < letter then (c, o) :: place letter offset rest
    else (letter, offset) :: rest

theorem mem_letters_place {letter c : Char} {offset : Binary64}
    {entries : List (Char × Binary64)} (h : c ∈ (place letter offset entries).map Prod.fst) :
    c = letter ∨ c ∈ entries.map Prod.fst := by
  induction entries with
  | nil => exact Or.inl (by simpa [place] using h)
  | cons entry rest ih =>
    obtain ⟨d, o⟩ := entry
    unfold place at h
    split at h
    · simpa using h
    · split at h
      · rcases List.mem_cons.1 h with rfl | h
        · exact Or.inr (List.mem_cons_self ..)
        · exact (ih h).imp id (List.mem_cons_of_mem _)
      · rcases List.mem_cons.1 h with rfl | h
        · exact Or.inl rfl
        · exact Or.inr (List.mem_cons_of_mem _ h)

theorem sorted_place (letter : Char) (offset : Binary64) {entries : List (Char × Binary64)}
    (h : (entries.map Prod.fst).Pairwise (· < ·)) :
    ((place letter offset entries).map Prod.fst).Pairwise (· < ·) := by
  induction entries with
  | nil => simp [place]
  | cons entry rest ih =>
    obtain ⟨d, o⟩ := entry
    obtain ⟨hd, hr⟩ := List.pairwise_cons.1 h
    unfold place
    split
    · rename_i hlt
      refine List.pairwise_cons.2 ⟨fun c hc => ?_, h⟩
      rcases List.mem_cons.1 hc with rfl | hc
      · exact hlt
      · exact Char.lt_trans hlt (hd c hc)
    · split
      · rename_i hgt
        refine List.pairwise_cons.2 ⟨fun c hc => ?_, ih hr⟩
        rcases mem_letters_place hc with rfl | hc
        · exact hgt
        · exact hd c hc
      · rename_i hnlt hngt
        have he : letter = d := Char.le_antisymm (Char.not_lt.1 hngt) (Char.not_lt.1 hnlt)
        exact he ▸ List.pairwise_cons.2 ⟨hd, hr⟩

/-- Store an offset under the very letter given. -/
def put (m : Modifiers) (letter : Char) (offset : Binary64) : Modifiers :=
  ⟨place letter offset m.entries, sorted_place letter offset m.sorted⟩

/-- Store an offset under the upper case of a letter, in place of an earlier one. -/
def insert (m : Modifiers) (letter : Char) (offset : Binary64) : Modifiers :=
  m.put letter.toUpper offset

def get? (m : Modifiers) (letter : Char) : Option Binary64 :=
  m.entries.lookup letter.toUpper

def ofList (entries : List (Char × Binary64)) : Modifiers :=
  entries.foldl (fun m (letter, offset) => m.insert letter offset) ∅

/-- A single ASCII letter and the finite offset for it, as in `Z=-30`. -/
def entry? (cs : List Char) : Option (Char × Binary64) := do
  let (before, after) ← Text.splitFirst? '=' cs
  let [letter] := Text.trim before | none
  let offset ← Binary64.read? (Text.trim after)
  if letter.isAlpha && offset.isFinite then some (letter, offset) else none

def parseEntry (input : String) : Except ProbeError (Char × Binary64) :=
  match entry? input.toList with
  | some entry => .ok entry
  | none => .error (.invalidOffset input)

/-- Entries between commas; blank ones do not count, and later ones win. -/
def parse (input : String) : Except ProbeError Modifiers := do
  let parts := ((Text.splitAll ',' input.toList).map Text.trim).filter (!·.isEmpty)
  let entries ← parts.mapM fun part => parseEntry (String.ofList part)
  return ofList entries

end Modifiers

end ProbeCycle
