import ProbeCycle.Proofs.Numeral
import ProbeCycle.Proofs.Text.Trim

namespace ProbeCycle.Text

variable {cs ds : List Char}

/-- Only the places of the capital letters are moved. -/
theorem toLower_cases (c : Char) : c.toLower = c ∨
    65 ≤ c.toNat ∧ c.toNat ≤ 90 ∧ c.toLower.toNat = c.toNat + 32 := by
  by_cases h : c.val ≥ 'A'.val ∧ c.val ≤ 'Z'.val
  · have hlow : 65 ≤ c.toNat := h.1
    have hhigh : c.toNat ≤ 90 := h.2
    have hsum : c.toLower.toNat = (c.val + 32).toNat := congrArg Char.toNat (dif_pos h)
    refine Or.inr ⟨hlow, hhigh, ?_⟩
    rw [hsum, UInt32.toNat_add, Nat.mod_eq_of_lt]
    · rfl
    · change c.toNat + 32 < 2 ^ 32
      omega
  · exact Or.inl (dif_neg h)

theorem isBlank_toLower (c : Char) : isBlank c.toLower = isBlank c := by
  rcases toLower_cases c with h | ⟨hlow, hhigh, h⟩
  · rw [h]
  · have hc : isBlank c = false := by
      simp [isBlank]
      omega
    have hlower : isBlank c.toLower = false := by
      simp [isBlank, h]
      omega
    rw [hc, hlower]

theorem isDigit_iff_toNat {c : Char} : c.isDigit = true ↔ 48 ≤ c.toNat ∧ c.toNat ≤ 57 := by
  simp only [Char.isDigit, Bool.and_eq_true, decide_eq_true_eq]
  exact Iff.rfl

theorem isDigit_toLower (c : Char) : c.toLower.isDigit = c.isDigit := by
  rcases toLower_cases c with h | ⟨hlow, hhigh, h⟩
  · rw [h]
  · rw [Bool.eq_iff_iff, isDigit_iff_toNat, isDigit_iff_toNat]
    omega

theorem toLower_of_isDigit {c : Char} (h : c.isDigit = true) : c.toLower = c := by
  simp only [Char.isDigit, Bool.and_eq_true, decide_eq_true_eq] at h
  refine dif_neg ?_
  intro hu
  exact absurd (UInt32.le_trans hu.1 h.2) (by decide)

theorem toLower_eq_plus {c : Char} : c.toLower = '+' ↔ c = '+' := by
  rcases toLower_cases c with h | ⟨hlow, hhigh, h⟩
  · rw [h]
  · constructor
    · intro he
      rw [he] at h
      have hplus : '+'.toNat = 43 := rfl
      omega
    · rintro rfl
      rfl

theorem isBlank_of_isNumeric {c : Char} (h : isNumeric c = true) : isBlank c = false := by
  simp only [isNumeric, Bool.or_eq_true, beq_iff_eq] at h
  rcases h with (h | rfl) | rfl
  · rw [isDigit_iff_toNat] at h
    simp [isBlank]
    omega
  · rfl
  · rfl

theorem trim_plain (h : Plain cs) : trim cs = cs := by
  apply trim_eq_self
  · exact fun c hc => isBlank_of_isNumeric (h.isNumeric c (List.mem_of_mem_head? hc))
  · exact fun c hc => isBlank_of_isNumeric (h.isNumeric c (List.mem_of_mem_getLast? hc))

/-- The index that digits spell. -/
theorem index?_of_ne {c : Char} (h : c ≠ '+') : index? (c :: cs) =
    (natural? (c :: cs)).bind fun n =>
      if n < UInt64.size then some (UInt64.ofNat n) else none := by
  unfold index?
  split
  · rename_i he
    exact absurd (List.cons.inj he).1 h
  · dsimp only
    cases natural? (c :: cs) <;> rfl

theorem index?_plus (cs : List Char) : index? ('+' :: cs) =
    (natural? cs).bind fun n => if n < UInt64.size then some (UInt64.ofNat n) else none := by
  simp only [index?]
  cases natural? cs <;> rfl

theorem natural?_toLower (cs : List Char) : natural? (cs.map Char.toLower) = natural? cs := by
  have hdigits : isDigits (cs.map Char.toLower) = isDigits cs := by
    simp [isDigits, List.all_map, Function.comp_def, isDigit_toLower]
  unfold natural?
  rw [hdigits]
  split
  · rename_i h
    have hsame : cs.map Char.toLower = cs.map id :=
      List.map_congr_left fun c hc => toLower_of_isDigit ((isDigits_iff.1 h).2 c hc)
    rw [hsame, List.map_id]
  · rfl

theorem index?_toLower (cs : List Char) : index? (cs.map Char.toLower) = index? cs := by
  cases cs with
  | nil => rfl
  | cons c rest =>
    by_cases hc : c = '+'
    · subst hc
      have hplus : '+'.toLower = '+' := rfl
      rw [List.map_cons, hplus, index?_plus, index?_plus, natural?_toLower]
    · have hlower : c.toLower ≠ '+' := fun h => hc (toLower_eq_plus.1 h)
      rw [index?_of_ne hc, List.map_cons, index?_of_ne hlower, ← List.map_cons, natural?_toLower]

theorem sameLetters_iff : sameLetters cs ds = true ↔ cs.map Char.toLower = ds.map Char.toLower :=
  beq_iff_eq

end ProbeCycle.Text
