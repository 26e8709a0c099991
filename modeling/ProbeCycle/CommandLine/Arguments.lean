import ProbeCycle.CommandLine.Command
import ProbeCycle.Text
import ProbeCycle.Text.Numeral

namespace ProbeCycle.CommandLine

/-- Why arguments name no command to run; help and the version are asked for in its place. -/
inductive UsageError where
  | unknownCommand
  | missingCommand
  | unknownArgument
  | missingArgument
  | missingValue
  | invalidValue
  | unexpectedValue
  | repeated
  | help
  | version
  | helpWithoutArguments
  deriving DecidableEq

def UsageError.message : UsageError → String
  | unknownCommand => "there is no such command"
  | missingCommand => "a command is missing"
  | unknownArgument => "an argument is not known here"
  | missingArgument => "the command needs an argument"
  | missingValue => "an option has no value"
  | invalidValue => "a value is not valid"
  | unexpectedValue => "an option takes no value"
  | repeated => "an option is given twice"
  | help => "help is asked for"
  | version => "the version is asked for"
  | helpWithoutArguments => "a command is missing"

/-- The arguments before the word of the command, or those of one command. An option of a command
comes only after its word. -/
inductive Level where
  | root
  | list
  | describe
  | compile
  | workplace
  deriving DecidableEq

/-- What a value is for. -/
inductive Slot where
  | config
  | operation
  | index
  | override
  | modifier
  deriving DecidableEq

/-- An option without a value. -/
inductive Switch where
  | json
  | noValidate
  | help
  | version
  deriving DecidableEq

namespace Level

def option? : Level → String → Option Slot
  | _, "config" => some .config
  | .compile, "set" => some .override
  | .compile, "modifier" => some .modifier
  | _, _ => none

def switch? : Level → String → Option Switch
  | _, "help" => some .help
  | .root, "version" => some .version
  | .describe, "json" => some .json
  | .compile, "no-validate" => some .noValidate
  | _, _ => none

def letterSwitch? : Level → Char → Option Switch
  | _, 'h' => some .help
  | .root, 'V' => some .version
  | _, _ => none

/-- The one value that stands without an option. -/
def positional? : Level → Option Slot
  | .describe => some .operation
  | .compile => some .operation
  | .workplace => some .index
  | _ => none

/-- The word of a command. -/
def ofWord? : String → Option Level
  | "list" => some .list
  | "show" => some .describe
  | "compile" => some .compile
  | "wcs" => some .workplace
  | _ => none

end Level

def helpWord : String := "help"

def isCommandWord (word : String) : Bool :=
  (Level.ofWord? word).isSome || word == helpWord

/-- The values and switches of one level that have been taken in. -/
structure Filled where
  config : Option String
  operation : Option String
  index : Option UInt64
  overrides : List String
  modifiers : List String
  json : Bool
  noValidate : Bool

namespace Filled

def empty : Filled := ⟨none, none, none, [], [], false, false⟩

/-- Take a value in; overrides and modifiers may come again. -/
def take (f : Filled) (slot : Slot) (text : String) : Except UsageError Filled :=
  match slot with
  | .config =>
    if f.config.isSome then .error .repeated
    else if text = "" then .error .missingValue
    else .ok { f with config := some text }
  | .operation => .ok { f with operation := some text }
  | .index =>
    match Text.index? text.toList with
    | some index => .ok { f with index := some index }
    | none => .error .invalidValue
  | .override => .ok { f with overrides := f.overrides ++ [text] }
  | .modifier => .ok { f with modifiers := f.modifiers ++ [text] }

def turn (f : Filled) : Switch → Except UsageError Filled
  | .json => if f.json then .error .repeated else .ok { f with json := true }
  | .noValidate =>
    if f.noValidate then .error .repeated else .ok { f with noValidate := true }
  | .help => .error .help
  | .version => .error .version

end Filled

/-- A slot whose value has not been taken in, or has not even come. A value is not looked at before
the next option or word begins: when an argument cannot be placed at all, the value before it is
never judged. -/
structure Pending where
  slot : Slot
  value : Option String

/-- How far the arguments of one level have been read. Behind a lone double dash nothing is an
option, or the value of one. -/
structure Reading where
  filled : Filled
  pending : Option Pending
  free : Option Slot
  optionsEnded : Bool

namespace Reading

def start (level : Level) : Reading := ⟨.empty, none, level.positional?, false⟩

/-- The slot that waits for its value. -/
def awaiting? (r : Reading) : Option Slot :=
  match r.pending with
  | some ⟨slot, none⟩ => if r.optionsEnded then none else some slot
  | _ => none

def settle (r : Reading) : Except UsageError Reading :=
  match r.pending with
  | none => .ok r
  | some ⟨_, none⟩ => .error .missingValue
  | some ⟨slot, some text⟩ => return { r with filled := ← r.filled.take slot text, pending := none }

def turn (r : Reading) (switch : Switch) : Except UsageError Reading := do
  let r ← r.settle
  return { r with filled := ← r.filled.turn switch }

/-- `--name` or `--name=value`. -/
def long (level : Level) (r : Reading) (name : String) (value : Option String) :
    Except UsageError Reading :=
  match level.option? name, level.switch? name, value with
  | some slot, _, some text => do
    let r ← r.settle
    return { r with filled := ← r.filled.take slot text }
  | some slot, _, none => do
    let r ← r.settle
    return { r with pending := some ⟨slot, none⟩ }
  | none, some _, some _ => .error .unexpectedValue
  | none, some switch, none => r.turn switch
  | none, none, _ => .error .unknownArgument

/-- Letters behind a single dash, of which the first one decides. -/
def short (level : Level) (r : Reading) (letter : Char) : Except UsageError Reading :=
  match level.letterSwitch? letter with
  | some switch => r.turn switch
  | none => .error .unknownArgument

/-- A word that is no option: the value that is waited for, or one for the free slot. -/
def word (level : Level) (r : Reading) (text : String) : Except UsageError Reading :=
  match r.awaiting?, r.free with
  | some slot, _ => .ok { r with pending := some ⟨slot, some text⟩ }
  | none, some slot => do
    let r ← r.settle
    return { r with pending := some ⟨slot, some text⟩, free := none }
  | none, none =>
    if level = .root ∧ !(r.optionsEnded ∧ isCommandWord text) then .error .unknownCommand
    else .error .unknownArgument

/-- One argument. -/
def argument (level : Level) (r : Reading) (text : String) : Except UsageError Reading :=
  if r.optionsEnded then r.word level text
  else match text.toList with
    | ['-', '-'] => .ok { r with optionsEnded := true }
    | '-' :: '-' :: name =>
      match Text.splitFirst? '=' name with
      | some (name, value) => r.long level (String.ofList name) (some (String.ofList value))
      | none => r.long level (String.ofList name) none
    | '-' :: letter :: _ => r.short level letter
    | _ => r.word level text

end Reading

/-- Read arguments to the end, or to the word of a command. -/
def readLevel (level : Level) (r : Reading) :
    List String → Except UsageError (Reading × List String)
  | [] => .ok (r, [])
  | text :: rest =>
    if level = .root ∧ !r.optionsEnded ∧ r.awaiting?.isNone ∧ isCommandWord text then
      .ok (r, text :: rest)
    else do
      let r ← r.argument level text
      readLevel level r rest

/-- All arguments of a command. -/
def readCommand (level : Level) (arguments : List String) : Except UsageError Filled := do
  let (r, _) ← readLevel level (.start level) arguments
  let r ← r.settle
  return r.filled

def commandOf (level : Level) (f : Filled) : Except UsageError Command :=
  match level, f.operation, f.index with
  | .list, _, _ => .ok .list
  | .describe, some operation, _ => .ok (.describe operation f.json)
  | .compile, some operation, _ =>
    .ok (.compile ⟨operation, f.overrides, f.modifiers, f.noValidate⟩)
  | .workplace, _, some index => .ok (.workplace index)
  | _, _, _ => .error .missingArgument

/-- Help on a command; no command has commands of its own. -/
def helpOn : List String → UsageError
  | [] => .help
  | [word] => if isCommandWord word then .help else .unknownCommand
  | _ => .unknownCommand

/-- The command that arguments name. A configuration file given behind the word of the command
counts more than one before it. -/
def parse (arguments : List String) : Except UsageError Invocation := do
  let (r, rest) ← readLevel .root (.start .root) arguments
  match rest with
  | [] =>
    let r ← r.settle
    .error (if r.filled.config.isSome then .missingCommand else .helpWithoutArguments)
  | word :: rest =>
    match Level.ofWord? word with
    | none => .error (helpOn rest)
    | some level =>
      let inner ← readCommand level rest
      let command ← commandOf level inner
      let r ← r.settle
      return ⟨inner.config <|> r.filled.config, command⟩

end ProbeCycle.CommandLine
