import ProbeCycle.Config.Basic
import ProbeCycle.Toml.Writer

namespace ProbeCycle

namespace Toml

def asString? : Toml → Option String
  | .string text => some text
  | _ => none

def asBool? : Toml → Option Bool
  | .bool flag => some flag
  | _ => none

/-- The decoded value where there is one, and else the default. -/
def orDefault? {α : Type} (default : α) (decode : Toml → Option α) : Option Toml → Option α
  | some v => decode v
  | none => some default

end Toml

namespace StoredValue

def toScalar : StoredValue → Toml.Scalar
  | boolean flag => .bool flag
  | integer n => .integer n
  | decimal x => .decimal x

def ofToml? : Toml → Option StoredValue
  | .bool flag => some (boolean flag)
  | .integer n => some (integer n)
  | .decimal x => some (decimal x)
  | _ => none

end StoredValue

def Table.ofToml? {α : Type} (decode : Toml → Option α) : Toml → Option (Table α)
  | .table entries => do
    let entries ← entries.mapM fun (key, v) => return (key, ← decode v)
    return .ofList entries
  | _ => none

namespace Config

open Toml (orDefault?)

def Logging.ofParts? (level json : Option Toml) : Option Logging := do
  let level ← orDefault? standard.level Toml.asString? level
  let json ← orDefault? standard.json Toml.asBool? json
  return ⟨level, json⟩

/-- A record may also be given by its members in order, more of them being left alone; and a date,
of which nothing is kept, counts as a record that leaves everything out. -/
def Logging.ofToml? : Toml → Option Logging
  | .table entries => ofParts? (entries.lookup "level") (entries.lookup "json")
  | .array items => ofParts? items[0]? items[1]?
  | .moment => some standard
  | _ => none

def Output.ofParts? (validateBounds : Option Toml) : Option Output := do
  return ⟨← orDefault? standard.validateBounds Toml.asBool? validateBounds⟩

def Output.ofToml? : Toml → Option Output
  | .table entries => ofParts? (entries.lookup "validate_bounds")
  | .array items => ofParts? items[0]?
  | .moment => some standard
  | _ => none

/-- The configuration that the entries of a document describe. What they leave out keeps its
standard value. -/
def ofToml? (entries : List (String × Toml)) : Option Config := do
  let logging ← orDefault? standard.logging Logging.ofToml? (entries.lookup "logging")
  let output ← orDefault? standard.output Output.ofToml? (entries.lookup "output")
  let defaults ← orDefault? standard.defaults
    (Table.ofToml? (Table.ofToml? StoredValue.ofToml?)) (entries.lookup "defaults")
  return ⟨logging, output, defaults⟩

/-- The stored values of each operation are a section of their own; without any operation, an
empty section stands for all. -/
def defaultsSections (defaults : Table (Table StoredValue)) : List Toml.Section :=
  if defaults.isEmpty then [⟨["defaults"], []⟩]
  else defaults.entries.map fun (operation, values) =>
    ⟨["defaults", operation], values.entries.map fun (key, stored) => (key, stored.toScalar)⟩

def sections (c : Config) : List Toml.Section :=
  ⟨["logging"], [("level", .string c.logging.level), ("json", .bool c.logging.json)]⟩ ::
    ⟨["output"], [("validate_bounds", .bool c.output.validateBounds)]⟩ ::
    defaultsSections c.defaults

end Config

end ProbeCycle
