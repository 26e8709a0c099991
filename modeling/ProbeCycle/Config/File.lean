import ProbeCycle.Config.Json
import ProbeCycle.Config.Toml
import ProbeCycle.Event

namespace ProbeCycle

namespace Config

inductive Format where
  | json
  | toml
  deriving DecidableEq

/-- The suffix of the path says whether a file is JSON or TOML. -/
def Format.ofPath? (path : String) : Option Format :=
  match Path.suffix? path with
  | some "json" => some .json
  | some "toml" => some .toml
  | _ => none

def parse (format : Format) (text : String) : Except ConfigError Config :=
  match format with
  | .json =>
    match (Json.read? text).bind ofJson? with
    | some c => .ok c
    | none => .error .malformedJson
  | .toml =>
    match (Toml.read? text).bind ofToml? with
    | some c => .ok c
    | none => .error .malformedToml

def render (format : Format) (c : Config) : String :=
  match format with
  | .json => c.toJson.toIndented
  | .toml => Toml.write c.sections

/-- The configuration in a file, from what reading the file gave. -/
def ofFile (path : String) (content : Except FileError String) : Except ConfigError Config := do
  let text ← content.mapError .file
  match Format.ofPath? path with
  | none => .error (.unsupportedFormat path)
  | some format =>
    let c ← parse format text
    c.validate
    return c

/-- Loading is reported only if it succeeds. -/
def reported (path : String) (loaded : Except ConfigError Config) :
    Reported (Except ConfigError Config) :=
  match loaded with
  | .ok c => ⟨[.configLoaded path], .ok c⟩
  | .error e => ⟨[], .error e⟩

def load (files : FileTree) (path : String) : Reported (Except ConfigError Config) :=
  reported path (ofFile path (files.read path))

/-- Where the configuration stands if no other place is given. -/
def defaultPath : String := "millprobe/config.toml"

/-- The configuration from its default place, or the standard one if nothing is there. -/
def loadDefault (files : FileTree) : Reported (Except ConfigError Config) :=
  if files.contains defaultPath then load files defaultPath
  else ⟨[.configMissing], .ok standard⟩

/-- Only a valid configuration is saved. Directories on the way are made. -/
def save (files : FileTree) (path : String) (c : Config) : FileTree.Attempt ConfigError :=
  match c.validate, Format.ofPath? path with
  | .error e, _ => ⟨files, some e⟩
  | .ok _, none => ⟨files, some (.unsupportedFormat path)⟩
  | .ok _, some format =>
    let stored := files.store path (.text (c.render format))
    ⟨stored.files, stored.failure.map .file⟩

end Config

end ProbeCycle
