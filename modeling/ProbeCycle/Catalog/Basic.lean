import ProbeCycle.Error
import ProbeCycle.Setting.Descriptor
import ProbeCycle.Table

namespace ProbeCycle

open Setting (Descriptor)

/-- A probing cycle: its code, and its settings in the order in which a line gives them. -/
structure Operation where
  key : String
  name : String
  icon : String
  description : String
  code : Binary64
  settings : Table Descriptor
  deriving DecidableEq

/-- Operations under their keys. -/
structure Catalog where
  operations : Table Operation
  deriving DecidableEq

namespace Catalog

def empty : Catalog := ⟨∅⟩

def add (c : Catalog) (op : Operation) : Catalog :=
  ⟨c.operations.insert op.key op⟩

def ofList (operations : List Operation) : Catalog :=
  operations.foldl add empty

def lookup (c : Catalog) (key : String) : Except ProbeError Operation :=
  match c.operations.find? key with
  | some op => .ok op
  | none => .error (.unknownOperation key)

/-- The first operation with the code; numbers are compared as numbers. -/
def byCode? (c : Catalog) (code : Binary64) : Option Operation :=
  c.operations.values.find? (·.code.equal code)

end Catalog

end ProbeCycle
