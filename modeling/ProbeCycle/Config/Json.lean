import ProbeCycle.Catalog.Json
import ProbeCycle.Config.Basic

namespace ProbeCycle

open Json (defaulted? named?)

namespace StoredValue

def toJson : StoredValue → Json
  | boolean flag => .bool flag
  | integer n => .ofInt n.toInt
  | decimal x => .ofBinary64 x

/-- Whole numbers beyond 63 bits are read as decimal ones. -/
def ofNumber : Number → StoredValue
  | .natural n =>
    if n.toNat ≤ 9223372036854775807 then integer n.toInt64
    else decimal (Number.natural n).toBinary64
  | .negative n => integer n
  | .decimal x => decimal x

def ofJson? : Json → Option StoredValue
  | .bool flag => some (boolean flag)
  | .number literal => literal.value?.map ofNumber
  | _ => none

end StoredValue

/-- A name that comes again keeps its first place and takes the later value. -/
def Table.ofJson? {α : Type} (decode : Json → Option α) : Json → Option (Table α)
  | .object members => do
    let entries ← members.mapM fun (name, value) => return (← name.string?, ← decode value)
    return .ofList entries
  | _ => none

namespace Config

def Logging.toJson (l : Logging) : Json :=
  .object [(.ofString "level", .ofString l.level), (.ofString "json", .bool l.json)]

def Logging.ofJson? : Json → Option Logging
  | .object members => do
    let members ← named? members
    let level ← defaulted? members "level" standard.level Json.asString?
    let json ← defaulted? members "json" standard.json Json.asBool?
    return ⟨level, json⟩
  | .array [] => some standard
  | .array [level] => return ⟨← level.asString?, standard.json⟩
  | .array [level, json] => return ⟨← level.asString?, ← json.asBool?⟩
  | _ => none

def Output.toJson (o : Output) : Json :=
  .object [(.ofString "validate_bounds", .bool o.validateBounds)]

def Output.ofJson? : Json → Option Output
  | .object members => do
    let members ← named? members
    return ⟨← defaulted? members "validate_bounds" standard.validateBounds Json.asBool?⟩
  | .array [] => some standard
  | .array [validateBounds] => return ⟨← validateBounds.asBool?⟩
  | _ => none

def toJson (c : Config) : Json :=
  .object [
    (.ofString "logging", c.logging.toJson),
    (.ofString "output", c.output.toJson),
    (.ofString "defaults", c.defaults.toJson (Table.toJson StoredValue.toJson))]

def defaultsOfJson? : Json → Option (Table (Table StoredValue)) :=
  Table.ofJson? (Table.ofJson? StoredValue.ofJson?)

/-- What a file leaves out keeps its standard value, and a record may also be written as an array of
its members in order. -/
def ofJson? : Json → Option Config
  | .object members => do
    let members ← named? members
    let logging ← defaulted? members "logging" standard.logging Logging.ofJson?
    let output ← defaulted? members "output" standard.output Output.ofJson?
    let defaults ← defaulted? members "defaults" standard.defaults defaultsOfJson?
    return ⟨logging, output, defaults⟩
  | .array [] => some standard
  | .array [logging] => return { standard with logging := ← Logging.ofJson? logging }
  | .array [logging, output] =>
    return { standard with
      logging := ← Logging.ofJson? logging
      output := ← Output.ofJson? output }
  | .array [logging, output, defaults] =>
    return ⟨← Logging.ofJson? logging, ← Output.ofJson? output, ← defaultsOfJson? defaults⟩
  | _ => none

end Config

end ProbeCycle
