import ProbeCycle.Word

namespace ProbeCycle.Setting

/-- A flag, a decimal number, or a choice from a list of options. -/
inductive Kind where
  | boolean
  | number
  | choice
  deriving DecidableEq

namespace Kind

def all : List Kind := [boolean, number, choice]

def name : Kind → String
  | boolean => "boolean"
  | number => "number"
  | choice => "enum"

def ofName? (name : String) : Option Kind :=
  all.find? (·.name == name)

end Kind

/-- The value of a choice is the place of the chosen option. -/
inductive Value where
  | boolean (flag : Bool)
  | number (x : Binary64)
  | choice (index : UInt64)
  deriving DecidableEq

namespace Value

def kind : Value → Kind
  | boolean _ => .boolean
  | number _ => .number
  | choice _ => .choice

def text : Value → String
  | boolean flag => if flag then "true" else "false"
  | number x => Word.number x
  | choice index => toString index.toNat

/-- Equality of values, numbers being compared as numbers. -/
def equal : Value → Value → Bool
  | boolean a, boolean b => a == b
  | number x, number y => x.equal y
  | choice i, choice j => i == j
  | _, _ => false

end Value

end ProbeCycle.Setting
