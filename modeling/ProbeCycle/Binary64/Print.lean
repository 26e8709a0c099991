import ProbeCycle.Binary64.Shortest

namespace ProbeCycle

namespace Decimal

/-- The significant digits, without zeros at their end, and the power of ten of the last one. -/
def significant (d : Decimal) : List Char × Int :=
  let digits := Nat.toDigits 10 d.digits
  let kept := (digits.reverse.dropWhile (· == '0')).reverse
  (kept, d.exponent + (digits.length - kept.length : Nat))

/-- Digits with the point set by position and no exponent. -/
def positional (digits : List Char) (exponent : Int) : List Char :=
  match exponent with
  | .ofNat k => digits ++ List.replicate k '0'
  | .negSucc k =>
    if k + 1 < digits.length then
      digits.take (digits.length - (k + 1)) ++ '.' :: digits.drop (digits.length - (k + 1))
    else '0' :: '.' :: (List.replicate (k + 1 - digits.length) '0' ++ digits)

end Decimal

namespace Binary64

/-- The digits of a finite magnitude in positional form; zero is a single digit. -/
def magnitudeText (units : Nat) : List Char :=
  if units = 0 then ['0']
  else
    let (digits, exponent) := (shortest .up units).significant
    Decimal.positional digits exponent

/-- The shortest numeral in plain positional form, the upper one of two that are equally near. -/
def text : Binary64 → String
  | .finite negative units _ =>
    String.ofList (if negative then '-' :: magnitudeText units else magnitudeText units)
  | .infinite negative => if negative then "-inf" else "inf"
  | .nan => "NaN"

end Binary64

end ProbeCycle
