import ProbeCycle.Setting.Value

namespace ProbeCycle

/-- A value as configuration files hold it. A file knows whole numbers and decimal ones; whether a
whole number is the place of an option or a number is for the setting to say. -/
inductive StoredValue where
  | boolean (flag : Bool)
  | integer (n : Int64)
  | decimal (x : Binary64)
  deriving DecidableEq

namespace StoredValue

open Setting (Kind Value)

/-- The value for a setting of a kind; whether the setting takes it is another matter. -/
def toValue (kind : Kind) : StoredValue → Value
  | boolean flag => .boolean flag
  | integer n =>
    if kind = .choice ∧ 0 ≤ n.toInt then .choice (.ofNat n.toInt.toNat)
    else .number (.ofInt n.toInt)
  | decimal x => .number x

/-- Places beyond 63 bits do not fit and wrap around. -/
def ofValue : Value → StoredValue
  | .boolean flag => boolean flag
  | .number x => decimal x
  | .choice index => integer index.toInt64

/-- Equality of the same forms, decimal numbers being compared as numbers. -/
def equal : StoredValue → StoredValue → Bool
  | boolean a, boolean b => a == b
  | integer m, integer n => m == n
  | decimal x, decimal y => x.equal y
  | _, _ => false

end StoredValue

end ProbeCycle
