import ProbeCycle.Catalog.Standard
import ProbeCycle.Config.StoredValue
import ProbeCycle.FileTree
import ProbeCycle.Setting.Check

namespace ProbeCycle

open Setting (Value)

structure Config.Logging where
  level : String
  json : Bool
  deriving DecidableEq

structure Config.Output where
  validateBounds : Bool
  deriving DecidableEq

/-- How much is logged, whether values are checked against their limits, and the values stored under
the keys of their operation and setting. -/
structure Config where
  logging : Config.Logging
  output : Config.Output
  defaults : Table (Table StoredValue)
  deriving DecidableEq

/-- What is wrong with a configuration or its file. -/
inductive ConfigError where
  | unknownLevel (level : String)
  | unsupportedFormat (path : String)
  | file (e : FileError)
  | malformedJson
  | malformedToml
  | probe (e : ProbeError)
  deriving DecidableEq

def ConfigError.message : ConfigError → String
  | unknownLevel level => s!"Invalid setting 'logging.level': unknown level '{level}'"
  | unsupportedFormat path => s!"Config file must be .json or .toml: {path}"
  | file e => s!"I/O error: {e.message}"
  | malformedJson => "JSON error"
  | malformedToml => "TOML error"
  | probe e => s!"Invalid probe default: {e.message}"

namespace Config

def Logging.standard : Logging := ⟨"info", false⟩

def Output.standard : Output := ⟨true⟩

def standard : Config := ⟨.standard, .standard, ∅⟩

def levels : List String := ["error", "warn", "info", "debug", "trace"]

/-- A level is named, in any case, or numbered from one. -/
def isLevel (level : String) : Bool :=
  match Text.index? level.toList with
  | some n => 1 ≤ n.toNat && n.toNat ≤ levels.length
  | none => levels.any fun name => Text.sameLetters name.toList level.toList

/-- The value that a stored one gives a setting of the operation. -/
def resolve (op : Operation) (key : String) (stored : StoredValue) : Except ProbeError Value :=
  match op.settings.find? key with
  | some descriptor => descriptor.accept key (stored.toValue descriptor.kind)
  | none => .error (.unknownSetting op.key key)

/-- All values stored for one operation must fit its settings. -/
def validateOperation (key : String) (values : Table StoredValue) : Except ProbeError Unit := do
  let op ← lookup key
  values.entries.forM fun (setting, stored) => discard (resolve op setting stored)

def validate (c : Config) : Except ConfigError Unit :=
  if isLevel c.logging.level then
    (c.defaults.entries.forM fun (key, values) => validateOperation key values).mapError .probe
  else .error (.unknownLevel c.logging.level)

/-- Store a value for a setting of a standard operation, unless the setting does not take it. -/
def setDefault (c : Config) (operation setting : String) (value : Value) :
    Except ConfigError Config := do
  let op ← (lookup operation).mapError .probe
  match op.settings.find? setting with
  | none => .error (.probe (.unknownSetting operation setting))
  | some descriptor =>
    let value ← (descriptor.accept setting value).mapError .probe
    let values := (c.defaults.find? operation).getD ∅
    let values := values.insert setting (.ofValue value)
    return { c with defaults := c.defaults.insert operation values }

end Config

end ProbeCycle
