import ProbeCycle.Setting.Value

namespace ProbeCycle

open Setting (Kind)

/-- What is wrong with an operation, a setting, a value or an offset. -/
inductive ProbeError where
  | unknownOperation (key : String)
  | unresolvedCondition (setting controller : String)
  | unknownSetting (operation setting : String)
  | kindMismatch (setting : String) (expected actual : Kind)
  | outOfRange (setting : String) (value lower upper : Binary64)
  | noSuchOption (setting : String) (index : UInt64) (count : Nat)
  | invalidValue (setting text : String)
  | invalidOffset (text : String)
  deriving DecidableEq

def ProbeError.message : ProbeError → String
  | unknownOperation key => s!"Unknown probe operation: {key}"
  | unresolvedCondition setting controller =>
    s!"Setting '{setting}' depends on unknown setting '{controller}'"
  | unknownSetting operation setting => s!"Operation '{operation}' has no setting '{setting}'"
  | kindMismatch setting expected actual =>
    s!"Setting '{setting}' expects a {expected.name} value, got {actual.name}"
  | outOfRange setting value lower upper =>
    s!"Setting '{setting}' out of range: {value.text} (valid: {lower.text}..{upper.text})"
  | noSuchOption setting index count =>
    s!"Setting '{setting}' has no option {index.toNat} ({count} options)"
  | invalidValue setting text => s!"Invalid value for '{setting}': {text}"
  | invalidOffset text => s!"Invalid modifier '{text}': expected <letter>=<offset>"

/-- A work coordinate system beyond the last one. -/
structure WorkplaceError where
  index : UInt64
  last : Nat
  deriving DecidableEq

def WorkplaceError.message (e : WorkplaceError) : String :=
  s!"Work coordinate system {e.index.toNat} not available (max {e.last})"

/-- Any failure, whichever part of the program it comes from. -/
inductive Failure where
  | probe (e : ProbeError)
  | workplace (e : WorkplaceError)
  | io (text : String)
  | other (text : String)
  deriving DecidableEq

namespace Failure

def message : Failure → String
  | probe e => e.message
  | workplace e => e.message
  | io text => s!"I/O error: {text}"
  | other text => text

def isLookupFailure : Failure → Bool
  | probe (.unknownOperation _) => true
  | _ => false

def isProbeError : Failure → Bool
  | probe _ => true
  | _ => false

def isWorkplaceError : Failure → Bool
  | workplace _ => true
  | _ => false

end Failure

end ProbeCycle
