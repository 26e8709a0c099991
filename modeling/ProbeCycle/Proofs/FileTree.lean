import ProbeCycle.FileTree
import ProbeCycle.Proofs.Steps

namespace ProbeCycle.FileTree

variable {t : FileTree} {path : String} {place start : Place} {node : Node} {content : String}

/-- The directories on the way can be made, and no directory stands where the path leads. -/
structure Writable (t : FileTree) (path : String) : Prop where
  way : (t.makeDirectory (Path.parent path)).failure = none
  file : Path.endsInSlash path = false
  leads : ∃ place, (t.makeDirectory (Path.parent path)).files.resolve path = .ok place ∧
    (t.makeDirectory (Path.parent path)).files.node? place ≠ some .directory

theorem names_ne_nil (h : t.node? place ≠ some .directory) : place.names ≠ [] := by
  intro hn
  exact h (if_pos hn)

theorem node?_put_self (h : t.node? place ≠ some .directory) :
    (t.put place node).node? place = some node := by
  rw [node?, if_neg (names_ne_nil h), put, List.lookup_cons_self]

theorem node?_put_of_ne (h : start ≠ place) : (t.put place node).node? start = t.node? start := by
  have hb : (start == place) = false := by simpa using h
  unfold node? put
  simp only [List.lookup_cons, hb]

/-- A name leads on from directories only, and the new file is at none of them. -/
theorem step_put {name : String} {next : Place} (hplace : t.node? place ≠ some .directory)
    (h : t.step start name = .ok next) : (t.put place node).step start name = .ok next := by
  have hstart : t.node? start = some .directory := by
    unfold step at h
    split at h
    · assumption
    · cases h
    · cases h
  have hne : start ≠ place := by
    rintro rfl
    exact hplace hstart
  unfold step at h ⊢
  rw [node?_put_of_ne hne]
  exact h

theorem walk_put {last : Place} (hplace : t.node? place ≠ some .directory) (names : List String)
    (h : names.foldlM t.step start = .ok last) :
    names.foldlM (t.put place node).step start = .ok last := by
  induction names generalizing start with
  | nil => exact h
  | cons name rest ih =>
    rw [List.foldlM_cons] at h ⊢
    obtain ⟨next, hnext, hrest⟩ := Steps.bind_eq_ok.1 h
    exact Steps.bind_eq_ok.2 ⟨next, step_put hplace hnext, ih hrest⟩

theorem resolve_put {last : Place} (hplace : t.node? place ≠ some .directory)
    (h : t.resolve path = .ok last) : (t.put place node).resolve path = .ok last := by
  unfold resolve follow at h ⊢
  obtain ⟨_, hpath, hrest⟩ := Steps.bind_eq_ok.1 h
  refine Steps.bind_eq_ok.2 ⟨_, hpath, ?_⟩
  split
  · rename_i he
    rw [if_pos he] at hrest
    cases hrest
  · rename_i he
    rw [if_neg he] at hrest
    exact walk_put hplace _ hrest

theorem write_eq_ok {files : FileTree} : t.write path node = .ok files ↔
    Path.endsInSlash path = false ∧ ∃ place, t.resolve path = .ok place ∧
      t.node? place ≠ some .directory ∧ files = t.put place node := by
  unfold write
  cases hslash : Path.endsInSlash path with
  | true => simp [Steps.bind_eq_ok]
  | false =>
    simp only [Bool.false_eq_true, if_false, Steps.bind_eq_ok, true_and]
    apply exists_congr
    intro place
    apply and_congr_right
    intro _
    split
    · rename_i hd
      simp [hd]
    · rename_i hd
      simp [hd, eq_comm]

theorem read_put (hslash : Path.endsInSlash path = false) (hpath : t.resolve path = .ok place)
    (hplace : t.node? place ≠ some .directory) :
    (t.put place (.text content)).read path = .ok content := by
  refine Steps.bind_eq_ok.2 ⟨place, resolve_put hplace hpath, ?_⟩
  rw [node?_put_self hplace, hslash]
  rfl

/-- Whether a file can be stored at a path does not depend on what is in it. -/
theorem store_failure_eq_none : (t.store path node).failure = none ↔ t.Writable path := by
  unfold store
  dsimp only
  constructor
  · intro h
    split at h
    · cases h
    · cases h
    · rename_i hway hwrite
      obtain ⟨hslash, place, hpath, hplace, _⟩ := write_eq_ok.1 hwrite
      exact ⟨hway, hslash, place, hpath, hplace⟩
  · intro h
    obtain ⟨place, hpath, hplace⟩ := h.leads
    rw [h.way, write_eq_ok.2 ⟨h.file, place, hpath, hplace, rfl⟩]

instance (t : FileTree) (path : String) : Decidable (t.Writable path) :=
  decidable_of_iff ((t.store path .binary).failure = none) store_failure_eq_none

/-- What is stored is read again: the new file stands in no one's way, so the path leads there
afterwards as it did before. -/
theorem read_store (h : t.Writable path) :
    (t.store path (.text content)).files.read path = .ok content := by
  obtain ⟨place, hpath, hplace⟩ := h.leads
  unfold store
  dsimp only
  rw [h.way, write_eq_ok.2 ⟨h.file, place, hpath, hplace, rfl⟩]
  exact read_put h.file hpath hplace

end ProbeCycle.FileTree
