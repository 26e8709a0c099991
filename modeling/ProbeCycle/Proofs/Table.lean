import Mathlib.Data.List.Nodup
import ProbeCycle.Table

namespace ProbeCycle

theorem lookup_map {α β : Type} (f : α → β) (entries : List (String × α)) (key : String) :
    (entries.map fun (k, x) => (k, f x)).lookup key = (entries.lookup key).map f := by
  induction entries with
  | nil => rfl
  | cons entry rest ih =>
    obtain ⟨k, x⟩ := entry
    by_cases h : key = k
    · simp [h]
    · have hk : (key == k) = false := by simpa using h
      simp only [List.map_cons, List.lookup_cons, hk, ih]

theorem lookup_of_not_mem {α : Type} {entries : List (String × α)} {key : String}
    (h : key ∉ entries.map Prod.fst) : entries.lookup key = none := by
  refine List.lookup_eq_none_iff.2 fun e he => ?_
  have hne : key ≠ e.1 := fun hk => h (hk ▸ List.mem_map_of_mem he)
  simpa using hne

theorem find?_key {α : Type} (entries : List (String × α)) (key : String) :
    entries.find? (fun e => e.1 == key) = (entries.lookup key).map fun x => (key, x) := by
  induction entries with
  | nil => rfl
  | cons entry rest ih =>
    obtain ⟨k, x⟩ := entry
    by_cases h : k = key
    · simp [h]
    · have hk : (key == k) = false := by simpa using fun e : key = k => h e.symm
      have hk' : (k == key) = false := by simpa using h
      simp only [List.find?_cons, List.lookup_cons, hk, hk', ih]

theorem lookup_filter {α : Type} (entries : List (String × α)) (key : String) :
    (entries.filter (·.1 == key)).lookup key = entries.lookup key := by
  induction entries with
  | nil => rfl
  | cons entry rest ih =>
    obtain ⟨k, x⟩ := entry
    by_cases h : k = key
    · simp [h]
    · have hk : (k == key) = false := by simpa using h
      have hk' : (key == k) = false := by simpa using fun e : key = k => h e.symm
      rw [List.filter_cons_of_neg (by simp [hk]), ih, List.lookup_cons, hk']

namespace Table

variable {α : Type} {t : Table α} {key k : String} {x : α}

@[simp] theorem entries_empty : (∅ : Table α).entries = [] := rfl

private theorem lookup_eq_some {entries : List (String × α)}
    (h : (entries.map Prod.fst).Nodup) :
    entries.lookup key = some x ↔ (key, x) ∈ entries := by
  induction entries with
  | nil => simp
  | cons entry rest ih =>
    obtain ⟨k, y⟩ := entry
    obtain ⟨hk, hr⟩ := List.nodup_cons.1 h
    by_cases he : key = k
    · subst he
      have hx : (key, x) ∉ rest := fun hm => hk (List.mem_map.2 ⟨_, hm, rfl⟩)
      simp [hx, eq_comm]
    · have hb : (key == k) = false := by simpa using he
      simp [List.lookup_cons, hb, ih hr, he]

theorem lookup_reverse {entries : List (String × α)} (h : (entries.map Prod.fst).Nodup)
    (key : String) : entries.reverse.lookup key = entries.lookup key := by
  have hr : (entries.reverse.map Prod.fst).Nodup := by
    rw [List.map_reverse]
    exact List.nodup_reverse.2 h
  apply Option.ext
  intro x
  rw [lookup_eq_some h, lookup_eq_some hr, List.mem_reverse]

theorem find?_eq_some : t.find? key = some x ↔ (key, x) ∈ t.entries :=
  lookup_eq_some t.nodup

private theorem lookup_store (value : α) (entries : List (String × α)) :
    (store key value entries).lookup k = if k = key then some value else entries.lookup k := by
  induction entries with
  | nil =>
    by_cases h : k = key <;> simp [store, h]
  | cons entry rest ih =>
    obtain ⟨c, y⟩ := entry
    by_cases hc : c = key
    · by_cases h : k = key
      · simp [store, hc, h]
      · have hk : (k == key) = false := by simpa using h
        simp [store, hc, h, List.lookup_cons, hk]
    · by_cases h : k = c
      · have hk : k ≠ key := fun e => hc (h ▸ e)
        simp [store, hc, h]
      · have hk : (k == c) = false := by simpa using h
        simp only [store, if_neg hc, List.lookup_cons, hk, ih]

@[simp] theorem find?_insert (t : Table α) (key k : String) (value : α) :
    (t.insert key value).find? k = if k = key then some value else t.find? k :=
  lookup_store value t.entries

theorem forall_insert {P : String × α → Prop} {value : α} (h : ∀ e ∈ t.entries, P e)
    (hnew : P (key, value)) : ∀ e ∈ (t.insert key value).entries, P e := by
  intro e he
  obtain ⟨k, x⟩ := e
  have hfind := find?_eq_some.2 he
  rw [find?_insert] at hfind
  split at hfind
  · rename_i hk
    obtain rfl : value = x := Option.some.inj hfind
    exact hk ▸ hnew
  · exact h (k, x) (find?_eq_some.1 hfind)

theorem keys_insert (t : Table α) (key : String) (value : α) :
    (t.insert key value).keys = if key ∈ t.keys then t.keys else t.keys ++ [key] :=
  keys_store key value t.entries

/-- A new key goes to the end. -/
theorem store_of_not_mem (value : α) {entries : List (String × α)}
    (h : key ∉ entries.map Prod.fst) : store key value entries = entries ++ [(key, value)] := by
  induction entries with
  | nil => rfl
  | cons entry rest ih =>
    obtain ⟨k, y⟩ := entry
    have hk : k ≠ key := fun e => h (by simp [e])
    have hr : key ∉ rest.map Prod.fst := fun hm => h (List.mem_cons_of_mem _ hm)
    simp [store, hk, ih hr]

/-- What is read off each entry stays if a known key gets a value that reads the same. -/
theorem map_store {β : Type} (f : α → β) {value : α} {entries : List (String × α)}
    (h : (entries.lookup key).map f = some (f value)) :
    (store key value entries).map (fun (k, y) => (k, f y)) =
      entries.map fun (k, y) => (k, f y) := by
  induction entries with
  | nil => simp at h
  | cons entry rest ih =>
    obtain ⟨k, y⟩ := entry
    by_cases hk : k = key
    · subst hk
      have hy : f y = f value := by simpa using h
      simp [store, hy]
    · have hb : (key == k) = false := by simpa using fun e : key = k => hk e.symm
      have hr : (rest.lookup key).map f = some (f value) := by
        simpa only [List.lookup_cons, hb] using h
      simp only [store, if_neg hk, List.map_cons, ih hr]

theorem place?_eq_none : t.place? key = none ↔ key ∉ t.keys := by
  rw [place?, List.findIdx?_eq_none_iff]
  constructor
  · intro h hm
    simpa using h key hm
  · intro h k hk
    have hne : k ≠ key := fun e => h (e ▸ hk)
    simpa using hne

/-- No key occurs twice, so a key is at one place only. -/
theorem place?_eq_some {place : Nat} : t.place? key = some place ↔ t.keys[place]? = some key := by
  rw [place?, List.findIdx?_eq_some_iff_getElem]
  constructor
  · intro h
    obtain ⟨hlt, hk, _⟩ := h
    rw [List.getElem?_eq_getElem hlt]
    exact congrArg some (eq_of_beq hk)
  · intro h
    obtain ⟨hlt, hk⟩ := List.getElem?_eq_some_iff.1 h
    refine ⟨hlt, by simpa using hk, ?_⟩
    intro other ho hother
    have he : t.keys[other] = t.keys[place] := (eq_of_beq hother).trans hk.symm
    have hsame : other = place := (List.Nodup.getElem_inj_iff t.nodup).1 he
    omega

/-- A key that is found stands at its place with what is found there. -/
theorem getElem?_place? {place : Nat} (h : t.place? key = some place) :
    ∃ x, t.find? key = some x ∧ t.entries[place]? = some (key, x) := by
  obtain ⟨hlt, hk, _⟩ := List.findIdx?_eq_some_iff_getElem.1 h
  have hl : place < t.entries.length := by simpa [keys] using hlt
  have hkey : t.entries[place].1 = key := by simpa [keys] using hk
  have he : t.entries[place]? = some (key, t.entries[place].2) := by
    rw [List.getElem?_eq_getElem hl, ← hkey]
  exact ⟨_, find?_eq_some.2 (List.mem_of_getElem? he), he⟩

/-- Entries under new keys go in one behind the other. -/
theorem entries_foldl {entries : List (String × α)}
    (h : ((t.entries ++ entries).map Prod.fst).Nodup) :
    (entries.foldl (fun t (key, value) => t.insert key value) t).entries =
      t.entries ++ entries := by
  induction entries generalizing t with
  | nil => rw [List.foldl_nil, List.append_nil]
  | cons entry rest ih =>
    obtain ⟨key, value⟩ := entry
    have hkey : key ∉ t.entries.map Prod.fst := by
      rw [List.map_append] at h
      intro hm
      exact (List.nodup_append.1 h).2.2 key hm key List.mem_cons_self rfl
    have hinsert : (t.insert key value).entries = t.entries ++ [(key, value)] :=
      store_of_not_mem value hkey
    have happend : t.entries ++ (key, value) :: rest = (t.insert key value).entries ++ rest := by
      rw [hinsert, List.append_assoc, List.singleton_append]
    rw [List.foldl_cons, happend]
    exact ih (happend ▸ h)

theorem entries_ofList {entries : List (String × α)} (h : (entries.map Prod.fst).Nodup) :
    (ofList entries).entries = entries :=
  entries_foldl h

end Table

end ProbeCycle
