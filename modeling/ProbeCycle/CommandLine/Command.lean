namespace ProbeCycle.CommandLine

/-- A line to be compiled: the values that are set and the offsets, as they were typed. -/
structure CompileRequest where
  operation : String
  overrides : List String
  modifiers : List String
  noValidate : Bool
  deriving DecidableEq

/-- What can be asked for on the command line. -/
inductive Command where
  | list
  | describe (operation : String) (json : Bool)
  | compile (request : CompileRequest)
  | workplace (index : UInt64)
  deriving DecidableEq

/-- A command, with the path of a configuration file if one is given. -/
structure Invocation where
  config : Option String
  command : Command
  deriving DecidableEq

end ProbeCycle.CommandLine
