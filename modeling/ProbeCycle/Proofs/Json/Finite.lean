import ProbeCycle.Json.Record
import ProbeCycle.Proofs.Decimal

namespace ProbeCycle

namespace NumberLiteral

variable {x y : Binary64} {l : NumberLiteral} {n : Number}

theorem tenTo_eq (k : Nat) :
    tenTo k = Binary64.ofRatio false (10 ^ k * Binary64.unitsPerOne) 1 := by
  have hnumerator : (Decimal.mk 1 k).numerator = 10 ^ k * Binary64.unitsPerOne := by
    simp [Decimal.numerator]
  have hdenominator : (Decimal.mk 1 k).denominator = 1 := by simp [Decimal.denominator]
  rw [tenTo, Decimal.toBinary64_eq_ofRatio, hnumerator, hdenominator]

theorem one_atMost_tenTo {k : Nat} (hk : 0 < k) : (1 : Binary64).atMost (tenTo k) = true := by
  obtain ⟨hu, hone⟩ := Binary64.one_eq
  -- Rounding keeps at least half of a magnitude, and ten is more than twice one.
  have hten : 2 * Binary64.unitsPerOne ≤ 10 ^ k * Binary64.unitsPerOne := by
    apply Nat.mul_le_mul_right
    have hpow : 10 ^ 1 ≤ 10 ^ k := Nat.pow_le_pow_right (by decide) hk
    omega
  have hunits := Binary64.le_nearestUnits hten
  rw [hone, tenTo_eq, Binary64.ofRatio]
  split
  · exact Binary64.atMost_of_le hunits
  · exact (Binary64.infinite_atMost rfl).2

theorem absorb_lt {n : Nat} (h : n < UInt64.size) (cs : List Char) :
    (absorb n cs).1 < UInt64.size := by
  induction cs generalizing n with
  | nil => exact h
  | cons c rest ih =>
    unfold absorb
    dsimp only
    split
    · rename_i hnext
      exact ih hnext
    · exact h

theorem isFinite_whole {negative : Bool} {n : Nat} (h : n < UInt64.size) :
    (Binary64.ofRatio negative (n * Binary64.unitsPerOne) 1).isFinite = true := by
  have htop : 2 * (UInt64.size * Binary64.unitsPerOne) + Binary64.topSpacing <
      2 * Binary64.unitLimit := by decide +kernel
  have hmul : n * Binary64.unitsPerOne ≤ UInt64.size * Binary64.unitsPerOne :=
    Nat.mul_le_mul_right _ h.le
  exact Binary64.isFinite_ofRatio (by omega)

private theorem isFinite_zero : (0 : Binary64).isFinite = true := by decide +kernel

/-- A product is looked at before it is returned, and the powers that are divided by are not below
one. -/
theorem isFinite_scaled? {exponent : Int} (hx : x.isFinite = true)
    (h : scaled? x exponent = some y) : y.isFinite = true := by
  cases exponent with
  | ofNat k =>
    unfold scaled? at h
    dsimp only at h
    split at h
    · split at h
      · cases h
        assumption
      · cases h
    · split at h
      · cases h
        exact hx
      · cases h
  | negSucc k =>
    unfold scaled? at h
    dsimp only at h
    split at h
    · cases h
      exact Binary64.isFinite_divide hx (one_atMost_tenTo (by omega))
    · split at h
      · cases h
        exact Binary64.isFinite_divide
          (Binary64.isFinite_divide hx (one_atMost_tenTo (by decide))) (one_atMost_tenTo (by omega))
      · rw [← Option.some.inj h]
        exact isFinite_zero

theorem isFinite_magnitude? {digits : Nat} {shift : Int} {exponent : Option (Bool × List Char)}
    (hd : digits < UInt64.size) (h : magnitude? digits shift exponent = some x) :
    x.isFinite = true := by
  unfold magnitude? at h
  cases exponent with
  | none => exact isFinite_scaled? (isFinite_whole hd) h
  | some written =>
    obtain ⟨negative, written⟩ := written
    dsimp only at h
    split at h
    · exact isFinite_scaled? (isFinite_whole hd) h
    · split at h
      · rw [← Option.some.inj h]
        exact isFinite_zero
      · cases h

theorem isFinite_ofNat {m : UInt64} : (Binary64.ofNat m.toNat).isFinite = true :=
  isFinite_whole m.toNat_lt

theorem isFinite_ofInt {m : Int64} : (Binary64.ofInt m.toInt).isFinite = true := by
  apply isFinite_whole
  have hlow := m.le_toInt
  have hhigh := m.toInt_lt
  change _ < 18446744073709551616
  omega

/-- Whatever a literal is read as is finite. -/
theorem isFinite_value? (h : l.value? = some n) : n.toBinary64.isFinite = true := by
  have hwhole := absorb_lt (n := 0) (by decide) l.whole
  unfold value? at h
  dsimp only at h
  split at h
  · rw [← Option.some.inj h]
    exact isFinite_ofNat
  · split at h
    · rw [← Option.some.inj h]
      exact isFinite_ofInt
    · obtain ⟨x, hx, rfl⟩ := Option.map_eq_some_iff.1 h
      have hfinite := isFinite_magnitude? (absorb_lt hwhole l.fraction) hx
      dsimp only [Number.toBinary64]
      split
      · rwa [Binary64.isFinite_neg]
      · exact hfinite

end NumberLiteral

namespace Json

variable {α : Type} {members : List (String × Json)} {name : String} {decode : Json → Option α}
  {a : α} {x : Binary64}

theorem isFinite_asBinary64? {j : Json} (h : j.asBinary64? = some x) : x.isFinite = true := by
  obtain ⟨n, hn, rfl⟩ := Option.map_eq_some_iff.1 h
  cases j with
  | number literal => exact NumberLiteral.isFinite_value? hn
  | _ => cases hn

theorem exists_of_required? (h : required? members name decode = some a) :
    ∃ j, decode j = some a := by
  obtain ⟨found, _, hfound⟩ := Option.bind_eq_some_iff.1 h
  obtain ⟨j, _, hj⟩ := Option.bind_eq_some_iff.1 hfound
  exact ⟨j, hj⟩

theorem exists_of_optional? (h : optional? members name decode = some (some a)) :
    ∃ j, decode j = some a := by
  obtain ⟨found, _, hfound⟩ := Option.bind_eq_some_iff.1 h
  cases found with
  | none => cases hfound
  | some j =>
    refine ⟨j, ?_⟩
    change orNull? decode j = some (some a) at hfound
    unfold orNull? at hfound
    split at hfound
    · cases hfound
    · obtain ⟨b, hb, hsome⟩ := Option.map_eq_some_iff.1 hfound
      exact Option.some.inj hsome ▸ hb

end Json

end ProbeCycle
