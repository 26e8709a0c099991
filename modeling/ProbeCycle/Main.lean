import ProbeCycle.CommandLine.Run

namespace ProbeCycle.Main

def usage : String :=
  "Usage: millprobe [--config PATH] <COMMAND>

Commands:
  list                                   List the probe operations
  show <OPERATION> [--json]              Show the settings of a probe operation
  compile <OPERATION> [--set KEY=VALUE]... [--modifier LETTER=OFFSET]... [--no-validate]
                                         Compile a probe operation into one line of G-code
  wcs <INDEX>                            Print the G-code selecting a work coordinate system
  help                                   Print this text"

def version : String := "millprobe 0.3.0-alpha.0"

def fileError : IO.Error → FileError
  | .noFileOrDirectory .. => .notFound
  | .inappropriateType _ code _ => if code = 21 then .isDirectory else .notDirectory
  | e => .other (toString e)

/-- The text of a file, or why there is none. -/
def readText (path : String) : IO (Except FileError String) := do
  try
    match String.fromUTF8? (← IO.FS.readBinFile path) with
    | some text => return .ok text
    | none => return .error .notText
  catch e => return .error (fileError e)

/-- The directory for the configuration files of all programs. -/
def configDirectory? : IO (Option String) := do
  match ← IO.getEnv "XDG_CONFIG_HOME" with
  | some directory => return some directory
  | none => return (← IO.getEnv "HOME").map (· ++ "/.config")

def loadDefault : IO (Reported (Except ConfigError Config)) := do
  let missing := ⟨[.configMissing], .ok .standard⟩
  match ← configDirectory? with
  | none => return missing
  | some directory =>
    let path := directory ++ "/" ++ Config.defaultPath
    match ← readText path with
    | .error .notFound => return missing
    | content => return Config.reported path (Config.ofFile path content)

def load (i : CommandLine.Invocation) : IO (Reported (Except ConfigError Config)) := do
  match i.config with
  | some path => return Config.reported path (Config.ofFile path (← readText path))
  | none => loadDefault

def refuse : CommandLine.UsageError → IO UInt32
  | .help => do
    IO.println usage
    return 0
  | .version => do
    IO.println version
    return 0
  | e => do
    IO.eprintln ("Error: " ++ e.message ++ "\n\n" ++ usage)
    return 2

/-- Warnings and errors go to the error output, the answer alone to the other one. -/
def run (arguments : List String) : IO UInt32 := do
  match CommandLine.parse arguments with
  | .error e => refuse e
  | .ok invocation =>
    let outcome := invocation.finish (← load invocation)
    for event in outcome.events do
      if event.level == "WARN" then IO.eprintln (event.level ++ " " ++ event.message)
    match outcome.result with
    | .ok text =>
      IO.println text
      return 0
    | .error e =>
      IO.eprintln ("Error: " ++ e.message)
      return 1

end ProbeCycle.Main

def main (arguments : List String) : IO UInt32 :=
  ProbeCycle.Main.run arguments
