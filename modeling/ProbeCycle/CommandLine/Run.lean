import ProbeCycle.CommandLine.Arguments
import ProbeCycle.CommandLine.Listing
import ProbeCycle.Config.File
import ProbeCycle.Config.Layer
import ProbeCycle.Line
import ProbeCycle.Workplace

namespace ProbeCycle.CommandLine

open Setting (Value)

/-- Why there is no output. -/
inductive CommandError where
  | usage (e : UsageError)
  | load (path : Option String) (e : ConfigError)
  | stored (e : ConfigError)
  | probe (e : ProbeError)
  | workplace (e : WorkplaceError)
  | noAssignment (entry : String)
  deriving DecidableEq

/-- What a configuration error says, followed by its cause where it has one. Of a file that
cannot be parsed nothing is told. -/
def causes : ConfigError → List String
  | .file e => [(ConfigError.file e).message, e.message]
  | .probe e => [(ConfigError.probe e).message, e.message]
  | .malformedJson => []
  | .malformedToml => []
  | e => [e.message]

def CommandError.message : CommandError → String
  | usage e => e.message
  | load (some path) e => ": ".intercalate (s!"Failed to load config from {path}" :: causes e)
  | load none e => ": ".intercalate ("Failed to load default config" :: causes e)
  | stored e => ": ".intercalate (causes e)
  | probe e => e.message
  | workplace e => e.message
  | noAssignment entry => s!"Expected KEY=VALUE, got '{entry}'"

/-- Give a setting the value behind the first equals sign. -/
def applyOverride (draft : Draft) (entry : String) : Except CommandError Draft :=
  match Text.splitFirst? '=' entry.toList with
  | none => .error (.noAssignment entry)
  | some (key, value) =>
    (draft.setText (String.ofList (Text.trim key)) (String.ofList value)).mapError .probe

/-- The snapshot and the offsets of a line, from the draft with all stored values. -/
def prepare (config : Config) (request : CompileRequest) (draft : Draft) :
    Except CommandError (Snapshot × Modifiers) := do
  let draft ← request.overrides.foldlM applyOverride draft
  let s ← draft.build.mapError .probe
  if config.output.validateBounds && !request.noValidate then
    s.checkBounds.mapError .probe
  let entries ← (request.modifiers.mapM Modifiers.parseEntry).mapError .probe
  return (s, .ofList entries)

/-- The line that a request asks for. Defaults of the operation give way to stored values, and both
to the values that are set on the command line. -/
def compileCommand (config : Config) (request : CompileRequest) :
    Reported (Except CommandError String) :=
  match lookup request.operation with
  | .error e => ⟨[], .error (.probe e)⟩
  | .ok op =>
    let layering := config.applyDefaults (.ofOperation op)
    match layering.failure with
    | some e => ⟨layering.events, .error (.stored e)⟩
    | none =>
      match prepare config request layering.draft with
      | .error e => ⟨layering.events, .error e⟩
      | .ok (s, modifiers) =>
        ⟨layering.events ++ compileEvents s (some modifiers),
          .ok (compile op.code s (some modifiers))⟩

def showOperation (operation : String) (json : Bool) : Except CommandError String :=
  match lookup operation with
  | .error e => .error (.probe e)
  | .ok op => .ok (if json then op.toJson.toIndented else op.overview)

def Command.run (config : Config) : Command → Reported (Except CommandError String)
  | .list => ⟨[], .ok Catalog.standard.listing⟩
  | .describe operation json => ⟨[], showOperation operation json⟩
  | .compile request => compileCommand config request
  | .workplace index => ⟨[], (Workplace.select index).mapError .workplace⟩

/-- The configuration that a command works with. -/
def Invocation.loadConfig (i : Invocation) (files : FileTree) :
    Reported (Except ConfigError Config) :=
  match i.config with
  | some path => Config.load files path
  | none => Config.loadDefault files

/-- Run a command once its configuration has been loaded. -/
def Invocation.finish (i : Invocation) (loaded : Reported (Except ConfigError Config)) :
    Reported (Except CommandError String) :=
  match loaded.result with
  | .error e => ⟨loaded.events, .error (.load i.config e)⟩
  | .ok config =>
    let run := i.command.run config
    ⟨loaded.events ++ run.events, run.result⟩

/-- What the arguments ask for, done with the given files. -/
def run (files : FileTree) (arguments : List String) : Reported (Except CommandError String) :=
  match parse arguments with
  | .error e => ⟨[], .error (.usage e)⟩
  | .ok i => i.finish (i.loadConfig files)

end ProbeCycle.CommandLine
