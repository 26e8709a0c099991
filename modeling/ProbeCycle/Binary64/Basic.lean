namespace ProbeCycle

namespace Binary64

/-- The gap, in units, between neighbouring magnitudes around `n` units. -/
def spacing (n : Nat) : Nat := Nat.pow 2 (n.log2 - 52)

/-- The least magnitude, in units, beyond every finite number. -/
def unitLimit : Nat := Nat.pow 2 2098

def unitsPerOne : Nat := Nat.pow 2 1074

theorem unitLimit_pos : 0 < unitLimit := by decide +kernel

/-- A magnitude below the limit whose significant bits are at most 53. -/
def Representable (n : Nat) : Prop := n < unitLimit ∧ spacing n ∣ n

instance (n : Nat) : Decidable (Representable n) :=
  inferInstanceAs (Decidable (n < unitLimit ∧ spacing n ∣ n))

end Binary64

/-- A binary floating-point number of 64 bits. A finite magnitude is a count of units, the unit
being the least positive number 2 ^ -1074, so every operation is an exact computation on whole
numbers followed by one rounding. -/
inductive Binary64 where
  | finite (negative : Bool) (units : Nat) (representable : Binary64.Representable units)
  | infinite (negative : Bool)
  | nan
  deriving DecidableEq

namespace Binary64

/-- The nearest whole number to a quotient; a half goes to the even neighbour. -/
def divideHalfEven (num den : Nat) : Nat :=
  let whole := num / den
  let rest := num % den
  if 2 * rest < den || (2 * rest == den && whole % 2 == 0) then whole else whole + 1

/-- The nearest magnitude to a quotient, in units and without the limit. -/
def nearestUnits (num den : Nat) : Nat :=
  let gap := spacing (num / den)
  divideHalfEven num (den * gap) * gap

private theorem spacing_dvd_mul {r : Nat} (k : Nat) (h : r ≤ Nat.pow 2 53) :
    spacing (r * Nat.pow 2 k) ∣ r * Nat.pow 2 k := by
  change r ≤ 2 ^ 53 at h
  change spacing (r * 2 ^ k) ∣ r * 2 ^ k
  rcases Nat.eq_zero_or_pos r with rfl | hr
  · simp [spacing]
  have hne : r * 2 ^ k ≠ 0 := Nat.ne_of_gt (Nat.mul_pos hr (Nat.two_pow_pos k))
  show 2 ^ ((r * 2 ^ k).log2 - 52) ∣ r * 2 ^ k
  rcases Nat.lt_or_eq_of_le h with hlt | rfl
  · have hlog : (r * 2 ^ k).log2 < 53 + k := by
      rw [Nat.log2_lt hne, Nat.pow_add]
      exact Nat.mul_lt_mul_of_pos_right hlt (Nat.two_pow_pos k)
    exact Nat.dvd_trans (Nat.pow_dvd_pow 2 (by omega)) (Nat.dvd_mul_left _ _)
  · rw [← Nat.pow_add, Nat.log2_two_pow]
    exact Nat.pow_dvd_pow 2 (by omega)

private theorem divideHalfEven_le (num den : Nat) : divideHalfEven num den ≤ num / den + 1 := by
  unfold divideHalfEven
  dsimp only
  split <;> omega

theorem spacing_dvd_nearestUnits (num den : Nat) :
    spacing (nearestUnits num den) ∣ nearestUnits num den := by
  show spacing (divideHalfEven num (den * 2 ^ ((num / den).log2 - 52)) *
      2 ^ ((num / den).log2 - 52)) ∣ _
  refine spacing_dvd_mul _ (Nat.le_trans (divideHalfEven_le _ _) ?_)
  rw [← Nat.div_div_eq_div_mul]
  refine Nat.succ_le_of_lt ((Nat.div_lt_iff_lt_mul (Nat.two_pow_pos _)).2 ?_)
  change num / den < 2 ^ 53 * 2 ^ ((num / den).log2 - 52)
  rw [← Nat.pow_add]
  exact Nat.lt_of_lt_of_le Nat.lt_log2_self (Nat.pow_le_pow_right (by decide) (by omega))

/-- The number nearest to a quotient of units; one at the limit or beyond becomes infinite. -/
def ofRatio (negative : Bool) (num den : Nat) : Binary64 :=
  if h : nearestUnits num den < unitLimit then
    .finite negative (nearestUnits num den) ⟨h, spacing_dvd_nearestUnits num den⟩
  else .infinite negative

def zero (negative : Bool) : Binary64 :=
  .finite negative 0 ⟨unitLimit_pos, Nat.dvd_zero _⟩

def ofNat (n : Nat) : Binary64 := ofRatio false (n * unitsPerOne) 1

def ofInt (n : Int) : Binary64 := ofRatio (n < 0) (n.natAbs * unitsPerOne) 1

instance (n : Nat) : OfNat Binary64 n := ⟨ofNat n⟩

def isFinite : Binary64 → Bool
  | .finite .. => true
  | _ => false

/-- A magnitude with its sign. -/
def signed (negative : Bool) (n : Nat) : Int :=
  if negative then -(n : Int) else n

/-- The place on the number line, in units; an infinity stands at the limit. -/
def position? : Binary64 → Option Int
  | .finite negative units _ => some (signed negative units)
  | .infinite negative => some (signed negative unitLimit)
  | .nan => none

/-- Equality as numbers: the two zeros are equal, and nothing equals `nan`. -/
def equal (x y : Binary64) : Bool :=
  match x.position?, y.position? with
  | some a, some b => a == b
  | _, _ => false

def less (x y : Binary64) : Bool :=
  match x.position?, y.position? with
  | some a, some b => a < b
  | _, _ => false

def negate : Binary64 → Binary64
  | .finite negative units h => .finite (!negative) units h
  | .infinite negative => .infinite (!negative)
  | .nan => .nan

instance : Neg Binary64 := ⟨negate⟩

def add : Binary64 → Binary64 → Binary64
  | .finite s a _, .finite t b _ =>
    let sum := signed s a + signed t b
    if sum = 0 then zero (s && t) else ofRatio (sum < 0) sum.natAbs 1
  | .infinite s, .infinite t => if s = t then .infinite s else .nan
  | .infinite s, .finite .. => .infinite s
  | .finite .., .infinite t => .infinite t
  | .nan, _ => .nan
  | _, .nan => .nan

def multiply : Binary64 → Binary64 → Binary64
  | .finite s a _, .finite t b _ => ofRatio (s != t) (a * b) unitsPerOne
  | .infinite s, .infinite t => .infinite (s != t)
  | .infinite s, .finite t b _ => if b = 0 then .nan else .infinite (s != t)
  | .finite s a _, .infinite t => if a = 0 then .nan else .infinite (s != t)
  | .nan, _ => .nan
  | _, .nan => .nan

def divide : Binary64 → Binary64 → Binary64
  | .finite s a _, .finite t b _ =>
    if b = 0 then if a = 0 then .nan else .infinite (s != t)
    else ofRatio (s != t) (a * unitsPerOne) b
  | .infinite _, .infinite _ => .nan
  | .infinite s, .finite t _ _ => .infinite (s != t)
  | .finite s _ _, .infinite t => zero (s != t)
  | .nan, _ => .nan
  | _, .nan => .nan

end Binary64

end ProbeCycle
