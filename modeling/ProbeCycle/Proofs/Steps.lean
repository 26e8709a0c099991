import Mathlib.Data.List.Forall2

namespace ProbeCycle.Steps

variable {α β γ ε ε' : Type}

/-- What went wrong, if something did. -/
def cause? : Except ε α → Option ε
  | .ok _ => none
  | .error e => some e

theorem cause?_eq_none {x : Except ε α} : cause? x = none ↔ ∃ a, x = .ok a := by
  cases x <;> simp [cause?]

theorem bind_eq_ok {x : Except ε α} {f : α → Except ε β} {b : β} :
    x >>= f = .ok b ↔ ∃ a, x = .ok a ∧ f a = .ok b := by
  cases x <;> simp [bind, Except.bind]

theorem bind_eq_error {x : Except ε α} {f : α → Except ε β} {e : ε} :
    x >>= f = .error e ↔ x = .error e ∨ ∃ a, x = .ok a ∧ f a = .error e := by
  cases x <;> simp [bind, Except.bind]

/-- A check that is made only on a condition. -/
theorem check_eq_ok {c : Bool} {x : Except ε Unit} {rest : Except ε β} {b : β} :
    (if c = true then x >>= fun _ => rest else rest) = .ok b ↔
      (c = true → x = .ok ()) ∧ rest = .ok b := by
  cases c with
  | false => simp
  | true => cases x <;> simp [bind, Except.bind]

theorem mapError_eq_ok {x : Except ε α} {f : ε → ε'} {a : α} :
    x.mapError f = .ok a ↔ x = .ok a := by
  cases x <;> simp [Except.mapError]

theorem mapError_eq_error {x : Except ε α} {f : ε → ε'} {e : ε'} :
    x.mapError f = .error e ↔ ∃ c, x = .error c ∧ f c = e := by
  cases x <;> simp [Except.mapError]

theorem discard_eq_ok {x : Except ε α} : discard x = .ok () ↔ ∃ a, x = .ok a := by
  cases x <;> simp [discard, Functor.discard, Functor.mapConst, Except.map]

theorem forM_eq_ok {xs : List α} {f : α → Except ε Unit} :
    xs.forM f = .ok () ↔ ∀ x ∈ xs, f x = .ok () := by
  induction xs with
  | nil => simp [pure, Except.pure]
  | cons x xs ih =>
    rw [List.forM_eq_forM] at ih ⊢
    rw [List.forM_cons, bind_eq_ok]
    simp only [ih, List.mem_cons, forall_eq_or_imp]
    constructor
    · intro hrun
      obtain ⟨_, hx, hxs⟩ := hrun
      exact ⟨hx, hxs⟩
    · intro hrun
      obtain ⟨hx, hxs⟩ := hrun
      exact ⟨(), hx, hxs⟩

/-- The first step that fails ends the run. -/
theorem forM_eq_error {xs : List α} {f : α → Except ε Unit} {e : ε} :
    xs.forM f = .error e ↔ ∃ before x after, xs = before ++ x :: after ∧
      (∀ y ∈ before, f y = .ok ()) ∧ f x = .error e := by
  induction xs with
  | nil => simp [pure, Except.pure]
  | cons x xs ih =>
    rw [List.forM_eq_forM] at ih ⊢
    rw [List.forM_cons, bind_eq_error, ih]
    constructor
    · intro hrun
      rcases hrun with hx | ⟨_, hx, before, y, after, rfl, hb, hy⟩
      · exact ⟨[], x, xs, rfl, by simp, hx⟩
      · exact ⟨x :: before, y, after, rfl, by simpa [hx] using hb, hy⟩
    · intro hrun
      obtain ⟨before, y, after, hxs, hb, hy⟩ := hrun
      cases before with
      | nil =>
        obtain ⟨rfl, rfl⟩ := List.cons.inj hxs
        exact Or.inl hy
      | cons z before =>
        obtain ⟨rfl, rfl⟩ := List.cons.inj hxs
        exact Or.inr ⟨(), hb x (by simp), before, y, after, rfl,
          fun w hw => hb w (by simp [hw]), hy⟩

/-- Items that are passed over take no part in the run, whatever they would do in it. -/
theorem forM_filter_eq_error {xs : List α} {p : α → Bool} {f : α → Except ε Unit} {e : ε} :
    (xs.filter p).forM f = .error e ↔ ∃ before x after, xs = before ++ x :: after ∧
      p x = true ∧ (∀ y ∈ before, p y = true → f y = .ok ()) ∧ f x = .error e := by
  rw [forM_eq_error]
  constructor
  · intro hrun
    obtain ⟨before, x, after, hsplit, hb, hx⟩ := hrun
    obtain ⟨front, rest, rfl, rfl, hrest⟩ := List.filter_eq_append_iff.1 hsplit
    obtain ⟨skipped, after', rfl, hskipped, hp, _⟩ := List.filter_eq_cons_iff.1 hrest
    refine ⟨front ++ skipped, x, after', by simp, hp, ?_, hx⟩
    intro y hy hpy
    rcases List.mem_append.1 hy with hy | hy
    · exact hb y (List.mem_filter.2 ⟨hy, hpy⟩)
    · exact absurd hpy (hskipped y hy)
  · intro hrun
    obtain ⟨before, x, after, rfl, hp, hb, hx⟩ := hrun
    refine ⟨before.filter p, x, after.filter p, ?_, ?_, hx⟩
    · rw [List.filter_append, List.filter_cons_of_pos hp]
    · intro y hy
      obtain ⟨hy, hpy⟩ := List.mem_filter.1 hy
      exact hb y hy hpy

theorem mapM_eq_ok {xs : List α} {f : α → Except ε β} {ys : List β} :
    xs.mapM f = .ok ys ↔ List.Forall₂ (fun x y => f x = .ok y) xs ys := by
  induction xs generalizing ys with
  | nil => simp [pure, Except.pure, eq_comm]
  | cons x xs ih =>
    rw [List.mapM_cons, bind_eq_ok, List.forall₂_cons_left_iff]
    simp only [bind_eq_ok, ih]
    constructor
    · intro hrun
      obtain ⟨y, hy, ys', hys, h⟩ := hrun
      exact ⟨y, ys', hy, hys, (Except.ok.inj h).symm⟩
    · intro hrun
      obtain ⟨y, ys', hy, hys, rfl⟩ := hrun
      exact ⟨y, hy, ys', hys, rfl⟩

theorem mapM_mapError {xs : List α} {f : α → Except ε β} {g : ε → ε'} :
    xs.mapM (fun x => (f x).mapError g) = (xs.mapM f).mapError g := by
  induction xs with
  | nil => rfl
  | cons x xs ih =>
    rw [List.mapM_cons, List.mapM_cons, ih]
    cases f x with
    | error e => rfl
    | ok y => cases xs.mapM f <;> rfl

/-- The first step that fails ends the run, and nothing of what came before it is kept. -/
theorem mapM_eq_error {xs : List α} {f : α → Except ε β} {e : ε} :
    xs.mapM f = .error e ↔ ∃ before x after, xs = before ++ x :: after ∧
      (∀ y ∈ before, ∃ b, f y = .ok b) ∧ f x = .error e := by
  induction xs with
  | nil => simp [pure, Except.pure]
  | cons x xs ih =>
    have hpure : ∀ y (ys : List β), (pure (y :: ys) : Except ε (List β)) ≠ .error e :=
      fun _ _ h => nomatch h
    rw [List.mapM_cons, bind_eq_error]
    simp only [bind_eq_error, ih, hpure, and_false, exists_false, or_false]
    constructor
    · intro hrun
      rcases hrun with hx | ⟨y, hx, before, z, after, rfl, hb, hz⟩
      · exact ⟨[], x, xs, rfl, by simp, hx⟩
      · exact ⟨x :: before, z, after, rfl, List.forall_mem_cons.2 ⟨⟨y, hx⟩, hb⟩, hz⟩
    · intro hrun
      obtain ⟨before, z, after, hxs, hb, hz⟩ := hrun
      cases before with
      | nil =>
        obtain ⟨rfl, rfl⟩ := List.cons.inj hxs
        exact Or.inl hz
      | cons w before =>
        obtain ⟨rfl, rfl⟩ := List.cons.inj hxs
        obtain ⟨⟨y, hy⟩, hb⟩ := List.forall_mem_cons.1 hb
        exact Or.inr ⟨y, hy, before, z, after, rfl, hb, hz⟩

/-- Where each step tests its input and computes from it, the whole run does. -/
theorem mapM_eq_ok_map {P : α → Prop} {g : α → β} {xs : List α} {f : α → Except ε β}
    (h : ∀ x y, f x = .ok y ↔ P x ∧ y = g x) {ys : List β} :
    xs.mapM f = .ok ys ↔ (∀ x ∈ xs, P x) ∧ ys = xs.map g := by
  have hg : List.Forall₂ (fun x y => y = g x) xs ys ↔ ys = xs.map g := by
    rw [eq_comm, ← List.forall₂_eq_eq_eq, List.forall₂_map_left_iff]
    simp only [eq_comm]
  rw [mapM_eq_ok]
  simp only [h]
  rw [List.forall₂_and_left, hg]

/-- Every element that some relation relates to something has a partner in one list. -/
theorem forall₂_exists {R : α → β → Prop} {xs : List α} :
    (∃ ys, List.Forall₂ R xs ys) ↔ ∀ x ∈ xs, ∃ y, R x y := by
  induction xs with
  | nil => simp
  | cons x xs ih =>
    simp only [List.forall₂_cons_left_iff, List.mem_cons, forall_eq_or_imp, ← ih]
    constructor
    · intro hrun
      obtain ⟨_, y, ys, hy, hys, rfl⟩ := hrun
      exact ⟨⟨y, hy⟩, ys, hys⟩
    · intro hrun
      obtain ⟨⟨y, hy⟩, ys, hys⟩ := hrun
      exact ⟨y :: ys, y, ys, hy, hys, rfl⟩

theorem forall_of_forall₂ {R : α → β → Prop} {P : β → Prop} (h : ∀ x y, R x y → P y)
    {xs : List α} {ys : List β} (hr : List.Forall₂ R xs ys) : ∀ y ∈ ys, P y := by
  induction hr with
  | nil => simp
  | cons hy _ ih => exact List.forall_mem_cons.2 ⟨h _ _ hy, ih⟩

/-- A run of steps, each of which reads its input or fails, follows the run of the steps that
only write what was read. The invariant is what reading needs to know of the state. -/
theorem foldlM_eq_ok {I : β → Prop} {R : α → γ → Prop} {f : β → α → Except ε β}
    {g : β → γ → β}
    (step : ∀ b x b', I b → (f b x = .ok b' ↔ ∃ y, R x y ∧ b' = g b y))
    (keep : ∀ b x y, I b → R x y → I (g b y)) (xs : List α) {b b' : β} (hb : I b) :
    xs.foldlM f b = .ok b' ↔ ∃ ys, List.Forall₂ R xs ys ∧ b' = ys.foldl g b := by
  induction xs generalizing b with
  | nil => simp [pure, Except.pure, eq_comm]
  | cons x xs ih =>
    rw [List.foldlM_cons, bind_eq_ok]
    constructor
    · intro h
      obtain ⟨c, hc, h⟩ := h
      obtain ⟨y, hy, rfl⟩ := (step b x c hb).1 hc
      obtain ⟨ys, hys, rfl⟩ := (ih (keep b x y hb hy)).1 h
      exact ⟨y :: ys, .cons hy hys, rfl⟩
    · intro h
      obtain ⟨_, hys, rfl⟩ := h
      cases hys with
      | cons hy hys =>
        exact ⟨_, (step b x _ hb).2 ⟨_, hy, rfl⟩, (ih (keep b x _ hb hy)).2 ⟨_, hys, rfl⟩⟩

/-- Where each item gives something or nothing, a list gives what all its items give. -/
theorem mapM_eq_some {xs : List α} {f : α → Option β} {ys : List β} :
    xs.mapM f = some ys ↔ List.Forall₂ (fun x y => f x = some y) xs ys := by
  induction xs generalizing ys with
  | nil => simp [pure, eq_comm]
  | cons x xs ih =>
    rw [List.mapM_cons, List.forall₂_cons_left_iff]
    simp only [Option.bind_eq_bind, Option.bind_eq_some_iff, ih]
    constructor
    · intro hrun
      obtain ⟨y, hy, ys', hys, h⟩ := hrun
      exact ⟨y, ys', hy, hys, (Option.some.inj h).symm⟩
    · intro hrun
      obtain ⟨y, ys', hy, hys, rfl⟩ := hrun
      exact ⟨y, hy, ys', hys, rfl⟩

/-- Where reading undoes writing item by item, it does so for a list. -/
theorem mapM_map_self {xs : List α} {f : α → β} {g : β → Option α}
    (h : ∀ x ∈ xs, g (f x) = some x) : (xs.map f).mapM g = some xs := by
  rw [mapM_eq_some, List.forall₂_map_left_iff, List.forall₂_same]
  exact h

end ProbeCycle.Steps
