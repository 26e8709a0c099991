import ProbeCycle.Binary64.Shortest
import ProbeCycle.Binary64.Print
import ProbeCycle.Json.Syntax
import ProbeCycle.Text.Numeral

namespace ProbeCycle

/-- What a number literal stands for: a literal without fraction and exponent is a whole number
as long as it fits 64 bits. -/
inductive Number where
  | natural (n : UInt64)
  | negative (n : Int64)
  | decimal (x : Binary64)
  deriving DecidableEq

def Number.toBinary64 : Number → Binary64
  | natural n => .ofNat n.toNat
  | negative n => .ofInt n.toInt
  | decimal x => x

namespace NumberLiteral

/-- Add digits to a number as long as it fits 64 bits, and count those that were added. -/
def absorb (n : Nat) : List Char → Nat × Nat
  | [] => (n, 0)
  | c :: rest =>
    let next := n * 10 + (c.toNat - '0'.toNat)
    if next < UInt64.size then
      let (total, count) := absorb next rest
      (total, count + 1)
    else (n, 0)

def tenTo (k : Nat) : Binary64 := (Decimal.mk 1 k).toBinary64 false

/-- A number times a power of ten, unless it overflows. Powers beyond 308 take two steps. -/
def scaled? (x : Binary64) (exponent : Int) : Option Binary64 :=
  match exponent with
  | .ofNat k =>
    if k ≤ 308 then
      let product := x.multiply (tenTo k)
      if product.isFinite then some product else none
    else if x.equal 0 then some x else none
  | .negSucc k =>
    if k + 1 ≤ 308 then some (x.divide (tenTo (k + 1)))
    else if k + 1 ≤ 616 then some ((x.divide (tenTo 308)).divide (tenTo (k + 1 - 308)))
    else some 0

/-- A magnitude from its first digits, where the point stands behind them, and the exponent of
the literal. An exponent that takes more than 31 bits leaves zero or an overflow. -/
def magnitude? (digits : Nat) (shift : Int) (exponent : Option (Bool × List Char)) :
    Option Binary64 :=
  match exponent with
  | none => scaled? (.ofNat digits) shift
  | some (negative, written) =>
    let n := Nat.ofDigitChars 10 written 0
    if n < 2147483648 then scaled? (.ofNat digits) (if negative then shift - n else shift + n)
    else if negative ∨ digits = 0 then some 0
    else none

/-- Literals with a fraction or an exponent are read with 64 bits of digits and a table of powers of
ten, so the result can differ in its last digit from the nearest number. -/
def value? (l : NumberLiteral) : Option Number :=
  let (digits, count) := absorb 0 l.whole
  let shift := l.whole.length - count
  if l.fraction = [] ∧ l.exponent = none ∧ shift = 0 ∧ !l.negative then
    some (.natural (.ofNat digits))
  else if l.fraction = [] ∧ l.exponent = none ∧ shift = 0 ∧ 0 < digits ∧
      digits ≤ 9223372036854775808 then
    some (.negative (.ofInt (-digits)))
  else
    let (digits, count) := absorb digits l.fraction
    (magnitude? digits (shift - count) l.exponent).map fun x =>
      .decimal (if l.negative then -x else x)

def ofInt (n : Int) : NumberLiteral where
  negative := n < 0
  whole := Nat.toDigits 10 n.natAbs
  fraction := []
  exponent := none

/-- The shortest digits of a finite magnitude, even ones if others are as near: positional from
10 ^ -5 to below 10 ^ 16 and with at least one digit behind the point, in scientific form
elsewhere. -/
def ofMagnitude (negative : Bool) (units : Nat) : NumberLiteral :=
  if units = 0 then ⟨negative, ['0'], ['0'], none⟩
  else
    let (digits, last) := (Binary64.shortest .even units).significant
    let first : Int := last + digits.length - 1
    if -5 ≤ first ∧ first ≤ 15 then
      match last with
      | .ofNat k => ⟨negative, digits ++ List.replicate k '0', ['0'], none⟩
      | .negSucc k =>
        if k + 1 < digits.length then
          ⟨negative, digits.take (digits.length - (k + 1)),
            digits.drop (digits.length - (k + 1)), none⟩
        else ⟨negative, ['0'], List.replicate (k + 1 - digits.length) '0' ++ digits, none⟩
    else ⟨negative, digits.take 1, digits.drop 1, some (first < 0, Nat.toDigits 10 first.natAbs)⟩

end NumberLiteral

end ProbeCycle
