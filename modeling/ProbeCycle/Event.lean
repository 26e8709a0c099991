import ProbeCycle.Setting.Value

namespace ProbeCycle

/-- What the program reports while it works. -/
inductive Event where
  | omitted (setting operation : String)
  | adjusted (letter : Char) (offset : Binary64) (setting : String) (value result : Binary64)
  | unmatched (letter : Char) (operation : String)
  | storedDefault (operation setting : String) (value : Setting.Value)
  | configLoaded (path : String)
  | configMissing
  deriving DecidableEq

namespace Event

def level : Event → String
  | unmatched .. => "WARN"
  | configLoaded _ => "INFO"
  | _ => "DEBUG"

def message : Event → String
  | omitted setting operation => s!"Omitting {setting} from {operation}: condition not met"
  | adjusted letter offset setting value result =>
    s!"Applied {letter} modifier {offset.text} to {setting}: {value.text} -> {result.text}"
  | unmatched letter operation => s!"Modifier for {letter} matched no setting of {operation}"
  | storedDefault operation setting value =>
    s!"Applied stored default {operation}.{setting} = {value.text}"
  | configLoaded path => s!"Loaded config from {path}"
  | configMissing => "No config file found, using defaults"

end Event

/-- A result, and what was reported on the way to it. -/
structure Reported (α : Type) where
  events : List Event
  result : α

end ProbeCycle
