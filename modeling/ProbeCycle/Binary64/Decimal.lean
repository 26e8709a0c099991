import ProbeCycle.Binary64.Basic
import ProbeCycle.Text.Numeral

namespace ProbeCycle

/-- The numeral `digits · 10 ^ exponent`. -/
structure Decimal where
  digits : Nat
  exponent : Int
  deriving DecidableEq

namespace Decimal

/-- The nearest magnitude in units. The guards only skip powers of ten that no finite magnitude
survives: 10 ^ 400 is past the limit, and 10 ^ -400 is far below half a unit. -/
def units (d : Decimal) : Nat :=
  if d.digits = 0 then 0
  else match d.exponent with
    | .ofNat k =>
      if 400 < k then Binary64.unitLimit
      else Binary64.nearestUnits (d.digits * Nat.pow 10 k * Binary64.unitsPerOne) 1
    | .negSucc k =>
      if d.digits.log2 + 400 < k then 0
      else Binary64.nearestUnits (d.digits * Binary64.unitsPerOne) (Nat.pow 10 (k + 1))

theorem spacing_dvd_units {d : Decimal} (h : d.units < Binary64.unitLimit) :
    Binary64.spacing d.units ∣ d.units := by
  unfold units at h ⊢
  split
  · exact Nat.dvd_zero _
  · rename_i hd
    rw [if_neg hd] at h
    revert h
    split
    · split
      · exact fun h => absurd h (Nat.lt_irrefl _)
      · exact fun _ => Binary64.spacing_dvd_nearestUnits _ _
    · split
      · exact fun _ => Nat.dvd_zero _
      · exact fun _ => Binary64.spacing_dvd_nearestUnits _ _

/-- The number nearest to a signed numeral. -/
def toBinary64 (negative : Bool) (d : Decimal) : Binary64 :=
  if h : d.units < Binary64.unitLimit then .finite negative d.units ⟨h, spacing_dvd_units h⟩
  else .infinite negative

/-- The exponent part of a numeral: empty, or `e` with a signed run of digits. -/
def exponent? : List Char → Option Int
  | [] => some 0
  | c :: rest =>
    if c = 'e' ∨ c = 'E' then
      let (negative, digits) := Text.splitSign rest
      (Text.natural? digits).map fun n => if negative then -(n : Int) else n
    else none

/-- An unsigned numeral: digits with at most one point, at least one digit in all, and an
optional exponent. -/
def read? (cs : List Char) : Option Decimal :=
  let whole := cs.takeWhile Char.isDigit
  let (fraction, rest) := match cs.dropWhile Char.isDigit with
    | '.' :: after => (after.takeWhile Char.isDigit, after.dropWhile Char.isDigit)
    | after => ([], after)
  if whole.isEmpty && fraction.isEmpty then none
  else (exponent? rest).map fun e =>
    ⟨Nat.ofDigitChars 10 (whole ++ fraction) 0, e - fraction.length⟩

end Decimal

namespace Binary64

instance : OfScientific Binary64 where
  ofScientific digits belowOne exponent :=
    Decimal.toBinary64 false ⟨digits, if belowOne then -exponent else exponent⟩

/-- A number as it is typed: an optional sign before a numeral or before `inf`, `infinity` or
`nan` in any case. -/
def read? (cs : List Char) : Option Binary64 :=
  let (negative, body) := Text.splitSign cs
  match String.ofList (body.map Char.toLower) with
  | "inf" => some (.infinite negative)
  | "infinity" => some (.infinite negative)
  | "nan" => some .nan
  | _ => (Decimal.read? body).map (Decimal.toBinary64 negative)

end Binary64

end ProbeCycle
