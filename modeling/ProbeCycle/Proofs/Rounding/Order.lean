import ProbeCycle.Proofs.Decimal

namespace ProbeCycle.Binary64

variable {n num num' den den' : Nat}

theorem spacing_two_pow_log2 (n : Nat) : spacing (Nat.pow 2 n.log2) = spacing n :=
  congrArg (fun k => Nat.pow 2 (k - 52)) Nat.log2_two_pow

/-- All the numbers of a binade have one spacing. -/
theorem spacing_eq {m : Nat} (hm : Nat.pow 2 n.log2 ≤ m) (hlt : m < Nat.pow 2 (n.log2 + 1)) :
    spacing m = spacing n := by
  have hpos : 0 < Nat.pow 2 n.log2 := Nat.pow_pos (by decide)
  have hlog : m.log2 = n.log2 := (Nat.log2_eq_iff (by omega)).2 ⟨hm, hlt⟩
  exact congrArg (fun k => Nat.pow 2 (k - 52)) hlog

/-- A number has at most 53 bits above its spacing. -/
theorem lt_spacing (n : Nat) : n < 2 ^ 53 * spacing n := by
  have hpow : 2 ^ (n.log2 + 1) ≤ 2 ^ (53 + (n.log2 - 52)) :=
    Nat.pow_le_pow_right (by decide) (by omega)
  calc
    n < 2 ^ (n.log2 + 1) := Nat.lt_log2_self
    _ ≤ 2 ^ (53 + (n.log2 - 52)) := hpow
    _ = 2 ^ 53 * spacing n := Nat.pow_add ..

theorem divideHalfEven_mono (h : num ≤ num') :
    divideHalfEven num den ≤ divideHalfEven num' den := by
  have hle : num / den ≤ num' / den := Nat.div_le_div_right h
  have hdiv := Nat.div_add_mod num den
  have hdiv' := Nat.div_add_mod num' den
  unfold divideHalfEven
  dsimp only
  rcases Nat.lt_or_eq_of_le hle with hlt | heq
  · split <;> split <;> omega
  -- With one whole part between them, the greater rest is rounded up if the lesser one is.
  · rw [← heq] at hdiv' ⊢
    have hrest : num % den ≤ num' % den := by omega
    split
    · split <;> omega
    · rename_i hup
      rw [if_neg]
      simp only [Bool.or_eq_true, Bool.and_eq_true, decide_eq_true_eq, beq_iff_eq] at hup ⊢
      omega

theorem nearestUnits_mono_left (hden : 0 < den) (h : num ≤ num') :
    nearestUnits num den ≤ nearestUnits num' den := by
  have hle : num / den ≤ num' / den := Nat.div_le_div_right h
  by_cases hsame : spacing (num / den) = spacing (num' / den)
  · unfold nearestUnits
    dsimp only
    rw [hsame]
    exact Nat.mul_le_mul_right _ (divideHalfEven_mono h)
  -- A power of two between the quotients is a number between what they are rounded to.
  · have hne : num' / den ≠ 0 := by
      intro hzero
      have hzero' : num / den = 0 := Nat.le_zero.1 (hzero ▸ hle)
      exact hsame (congrArg spacing (hzero'.trans hzero.symm))
    have hlow : num / den < Nat.pow 2 (num' / den).log2 := by
      apply Nat.lt_of_not_le
      intro hpow
      exact hsame (spacing_eq hpow (Nat.lt_of_le_of_lt hle Nat.lt_log2_self))
    have hbelow : num ≤ den * Nat.pow 2 (num' / den).log2 := by
      rw [Nat.mul_comm]
      exact Nat.le_of_lt ((Nat.div_lt_iff_lt_mul hden).1 hlow)
    have hdvd : spacing (Nat.pow 2 (num' / den).log2) ∣ Nat.pow 2 (num' / den).log2 := by
      rw [spacing_two_pow_log2]
      exact spacing_dvd_two_pow_log2 _
    exact Nat.le_trans (nearestUnits_le hdvd hbelow) (two_pow_log2_le_nearestUnits hne)

theorem nearestUnits_mono (hden : 0 < den) (hden' : 0 < den') (h : num * den' ≤ num' * den) :
    nearestUnits num den ≤ nearestUnits num' den' := by
  rw [← nearestUnits_scale num den hden', ← nearestUnits_scale num' den' hden,
    Nat.mul_comm den' den]
  exact nearestUnits_mono_left (Nat.mul_pos hden hden') h

/-- Between a number and the next one the gap does not change. -/
theorem spacing_of_above {m : Nat} (hd : spacing n ∣ n) (hm : n ≤ m) (hlt : m < n + spacing n) :
    spacing m = spacing n := by
  have htop : n + spacing n ≤ Nat.pow 2 (n.log2 + 1) := by
    by_cases hlog : 52 ≤ n.log2
    · have hgap : Nat.pow 2 (n.log2 + 1 - 53) = spacing n :=
        congrArg (Nat.pow 2) (Nat.add_sub_add_right n.log2 1 52)
      rw [← hgap]
      exact add_spacing_le (by omega) Nat.lt_log2_self hd
    · have hone : spacing n = 1 := congrArg (Nat.pow 2) (Nat.sub_eq_zero_of_le (by omega))
      rw [hone]
      exact Nat.lt_log2_self
  rcases Nat.lt_or_eq_of_le hm with hgt | rfl
  · refine spacing_eq ?_ (by omega)
    by_cases hn : n = 0
    · rw [hn]
      exact Nat.one_le_of_lt hgt
    · exact Nat.le_trans (Nat.log2_self_le hn) hm
  · rfl

/-- Between a number and the one before it the gap does not change either. -/
theorem spacing_of_below {m : Nat} (hd : spacing n ∣ n) (hm : n ≤ m + spacing (n - 1))
    (hlt : m < n) : spacing m = spacing (n - 1) := by
  by_cases hlog : 52 ≤ (n - 1).log2
  · have hne : n - 1 ≠ 0 := by
      intro hzero
      simp [hzero] at hlog
    have hpow : Nat.pow 2 (n - 1).log2 ≤ n - 1 := Nat.log2_self_le hne
    have hstep : spacing (n - 1) ∣ n - Nat.pow 2 (n - 1).log2 :=
      Nat.dvd_sub (Nat.dvd_trans (spacing_dvd_spacing (Nat.sub_le n 1)) hd)
        (spacing_dvd_two_pow_log2 _)
    have hroom := Nat.le_of_dvd (by omega) hstep
    have htop : n - 1 < Nat.pow 2 ((n - 1).log2 + 1) := Nat.lt_log2_self
    exact spacing_eq (by omega) (by omega)
  · have hone : spacing (n - 1) = 1 := congrArg (Nat.pow 2) (Nat.sub_eq_zero_of_le (by omega))
    congr 1
    omega

theorem divideHalfEven_of_above {q : Nat} (hlow : q * den ≤ num)
    (hnear : 2 * num < 2 * (q * den) + den) : divideHalfEven num den = q := by
  have hdiv : num / den = q := Nat.div_eq_of_lt_le hlow (by rw [Nat.succ_mul]; omega)
  have hrest : 2 * (num % den) < den := by
    have hsplit := Nat.div_add_mod num den
    rw [hdiv, Nat.mul_comm] at hsplit
    omega
  simp [divideHalfEven, hdiv, hrest]

theorem divideHalfEven_of_below {q : Nat} (hlow : num < (q + 1) * den)
    (hnear : 2 * ((q + 1) * den) < 2 * num + den) : divideHalfEven num den = q + 1 := by
  have hnext : (q + 1) * den = q * den + den := Nat.succ_mul q den
  have hdiv : num / den = q := Nat.div_eq_of_lt_le (by omega) hlow
  have hrest : den < 2 * (num % den) := by
    have hsplit := Nat.div_add_mod num den
    rw [hdiv, Nat.mul_comm] at hsplit
    omega
  simp [divideHalfEven, hdiv, Nat.not_lt.2 (Nat.le_of_lt hrest), Nat.ne_of_gt hrest]

/-- What lies above a number by less than half the gap is rounded to it. -/
theorem nearestUnits_of_above (hd : spacing n ∣ n) (hden : 0 < den) (h : n * den ≤ num)
    (hnear : 2 * num < 2 * (n * den) + den * spacing n) : nearestUnits num den = n := by
  have hhigh : num / den < n + spacing n := by
    rw [Nat.div_lt_iff_lt_mul hden, Nat.add_mul, Nat.mul_comm (spacing n)]
    omega
  unfold nearestUnits
  dsimp only
  rw [spacing_of_above hd ((Nat.le_div_iff_mul_le hden).2 h) hhigh]
  obtain ⟨q, hq⟩ := hd
  have hwhole : q * (den * spacing n) = n * den := by
    rw [Nat.mul_left_comm, Nat.mul_comm q, ← hq, Nat.mul_comm]
  rw [divideHalfEven_of_above (q := q) (by omega) (by omega), Nat.mul_comm, ← hq]

/-- What lies below a number by less than half the gap there is rounded to it. -/
theorem nearestUnits_of_below (hd : spacing n ∣ n) (hden : 0 < den) (h : num < n * den)
    (hnear : 2 * (n * den) < 2 * num + den * spacing (n - 1)) : nearestUnits num den = n := by
  have hlow : n ≤ num / den + spacing (n - 1) := by
    apply Nat.le_of_not_lt
    intro hlt
    have hfar : num < (n - spacing (n - 1)) * den := (Nat.div_lt_iff_lt_mul hden).1 (by omega)
    rw [Nat.sub_mul, Nat.mul_comm (spacing _)] at hfar
    omega
  unfold nearestUnits
  dsimp only
  rw [spacing_of_below hd hlow ((Nat.div_lt_iff_lt_mul hden).2 h)]
  obtain ⟨q, hq⟩ := Nat.dvd_trans (spacing_dvd_spacing (Nat.sub_le n 1)) hd
  have hwhole : q * (den * spacing (n - 1)) = n * den := by
    rw [Nat.mul_left_comm, Nat.mul_comm q, ← hq, Nat.mul_comm]
  obtain ⟨p, rfl⟩ : ∃ p, q = p + 1 := by
    apply Nat.exists_eq_succ_of_ne_zero
    rintro rfl
    omega
  rw [divideHalfEven_of_below (q := p) (by omega) (by omega), Nat.mul_comm, ← hq]

end ProbeCycle.Binary64
