namespace ProbeCycle

/-- Values under keys, in the order in which the keys first came. No key occurs twice: storing under
a known key replaces the value where it stands. -/
structure Table (α : Type) where
  entries : List (String × α)
  nodup : (entries.map Prod.fst).Nodup

namespace Table

variable {α : Type}

@[ext] theorem ext {s t : Table α} (h : s.entries = t.entries) : s = t := by
  cases s
  cases t
  congr

instance [DecidableEq α] : DecidableEq (Table α) := fun s t =>
  if h : s.entries = t.entries then isTrue (ext h) else isFalse fun e => h (e ▸ rfl)

def empty : Table α := ⟨[], List.nodup_nil⟩

instance : EmptyCollection (Table α) := ⟨empty⟩

def keys (t : Table α) : List String := t.entries.map Prod.fst

def values (t : Table α) : List α := t.entries.map Prod.snd

def size (t : Table α) : Nat := t.entries.length

def isEmpty (t : Table α) : Bool := t.entries.isEmpty

def find? (t : Table α) (key : String) : Option α := t.entries.lookup key

/-- The place of a key in the order of the table. -/
def place? (t : Table α) (key : String) : Option Nat := t.keys.findIdx? (· == key)

/-- Entries with `value` stored under `key`, in place or at the end. -/
def store (key : String) (value : α) : List (String × α) → List (String × α)
  | [] => [(key, value)]
  | (k, v) :: rest =>
    if k = key then (key, value) :: rest else (k, v) :: store key value rest

theorem keys_store (key : String) (value : α) (entries : List (String × α)) :
    (store key value entries).map Prod.fst =
      if key ∈ entries.map Prod.fst then entries.map Prod.fst
      else entries.map Prod.fst ++ [key] := by
  induction entries with
  | nil => simp [store]
  | cons entry rest ih =>
    obtain ⟨k, v⟩ := entry
    by_cases h : k = key
    · simp [store, h]
    · have h' : ¬ key = k := fun e => h e.symm
      by_cases hm : key ∈ rest.map Prod.fst
      · rw [if_pos hm] at ih
        rw [if_pos (by simp only [List.map_cons, List.mem_cons]; exact Or.inr hm)]
        simp [store, h, ih]
      · rw [if_neg hm] at ih
        rw [if_neg (by simp only [List.map_cons, List.mem_cons]; exact fun e => e.elim h' hm)]
        simp [store, h, ih]

theorem nodup_store (key : String) (value : α) {entries : List (String × α)}
    (h : (entries.map Prod.fst).Nodup) : ((store key value entries).map Prod.fst).Nodup := by
  rw [keys_store]
  split
  · exact h
  · rename_i hm
    exact List.nodup_append.2
      ⟨h, by simp, fun a ha b hb e => hm (by simp_all)⟩

def insert (t : Table α) (key : String) (value : α) : Table α :=
  ⟨store key value t.entries, nodup_store key value t.nodup⟩

def ofList (entries : List (String × α)) : Table α :=
  entries.foldl (fun t (key, value) => t.insert key value) ∅

end Table

end ProbeCycle
