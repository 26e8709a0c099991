import ProbeCycle.Binary64.Decimal

namespace ProbeCycle.Binary64

/-- A unit is 5 ^ 1074 · 10 ^ -1074, so every magnitude has an exact numeral. -/
def exactNumeral (units : Nat) : Decimal := ⟨units * Nat.pow 5 1074, -1074⟩

/-- How many digits a positive number has. The first line is at most one below the count less
one, as 0.30102 · log2 n is within 1/2 of log10 n up to 4700 bits. -/
def digitCount (n : Nat) : Nat :=
  let low := n.log2 * 30102 / 100000
  if Nat.pow 10 (low + 1) ≤ n then low + 2 else low + 1

/-- Which of two equally near numerals is taken: the upper one, or that with an even last digit. -/
inductive Tie where
  | up
  | even
  deriving DecidableEq

/-- Whether of the two neighbours of a quotient the lower one is to be taken. -/
def Tie.prefersLower (tie : Tie) (num den : Nat) : Bool :=
  2 * (num % den) < den || (2 * (num % den) == den && tie == .even && num / den % 2 == 0)

/-- The numeral among two that reads back as `units`; where both do, the preferred one. -/
def readingBack? (units : Nat) (preferLower : Bool) (lower upper : Decimal) : Option Decimal :=
  if lower.units = units ∧ (preferLower ∨ upper.units ≠ units) then some lower
  else if upper.units = units then some upper
  else none

/-- The numeral of `count` digits that reads back as `units`, if there is one: of the two
neighbours of the exact value on that grid the nearer. -/
def numeralOfLength? (tie : Tie) (units count : Nat) : Option Decimal :=
  let exact := (exactNumeral units).digits
  let dropped := digitCount exact - count
  let step := Nat.pow 10 dropped
  readingBack? units (tie.prefersLower exact step)
    ⟨exact / step, dropped - 1074⟩ ⟨exact / step + 1, dropped - 1074⟩

/-- The shortest numeral of a magnitude: the fewest digits that read back as the number, and among
those the nearest to it. Seventeen digits always suffice; the exact numeral stands in for the search
that never fails. -/
def shortest (tie : Tie) (units : Nat) : Decimal :=
  ((List.range 17).findSome? fun i => numeralOfLength? tie units (i + 1)).getD
    (exactNumeral units)

theorem units_of_readingBack? {units : Nat} {preferLower : Bool} {lower upper d : Decimal}
    (h : readingBack? units preferLower lower upper = some d) : d.units = units := by
  unfold readingBack? at h
  split at h
  · rename_i hl
    exact Option.some.inj h ▸ hl.1
  · split at h
    · rename_i hu
      exact Option.some.inj h ▸ hu
    · cases h

end ProbeCycle.Binary64
