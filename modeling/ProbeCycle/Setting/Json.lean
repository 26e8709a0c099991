import ProbeCycle.Json.Reader
import ProbeCycle.Json.Record
import ProbeCycle.Json.Writer
import ProbeCycle.Setting.Descriptor
import ProbeCycle.Text.Quoted

namespace ProbeCycle

open Json (required? optional? defaulted? orNull? named?)

namespace Setting

/-- A kind is a name, or a record with that name alone and nothing in it. -/
def Kind.ofJson? : Json → Option Kind
  | .string name => name.string?.bind ofName?
  | .object [(name, .null)] => name.string?.bind ofName?
  | _ => none

namespace Value

def toJson : Value → Json
  | boolean flag => .bool flag
  | number x => .ofBinary64 x
  | choice index => .ofInt index.toNat

/-- A whole number without sign is the place of an option, any other number a decimal number. -/
def ofNumber : Number → Value
  | .natural n => choice n
  | n => number n.toBinary64

def ofJson? : Json → Option Value
  | .bool flag => some (boolean flag)
  | .number literal => literal.value?.map ofNumber
  | _ => none

/-- Why a text is no value: it is not JSON, or JSON for something else. -/
inductive ReadError where
  | malformed
  | wrongType (found : String)
  deriving DecidableEq

def ReadError.message : ReadError → String
  | malformed => "malformed JSON"
  | wrongType found =>
    s!"invalid type: {found}, expected a boolean, a decimal number or an option index"

/-- What a text starts with that can be no value, whatever comes behind. -/
def foreign? (cs : List Char) : Option String :=
  match Json.skipBlanks cs with
  | 'n' :: 'u' :: 'l' :: 'l' :: _ => some "null"
  | '[' :: _ => some "sequence"
  | '{' :: _ => some "map"
  | '"' :: rest =>
    (Json.readString rest).bind fun (text, _) =>
      text.string?.map fun s => "string " ++ Text.quoted s
  | _ => none

def read (text : String) : Except ReadError Value :=
  match foreign? text.toList with
  | some found => .error (.wrongType found)
  | none =>
    match (Json.read? text).bind ofJson? with
    | some value => .ok value
    | none => .error .malformed

end Value

def Choice.toJson (c : Choice) : Json :=
  .object [(.ofString "icon", .ofString c.icon), (.ofString "label", .ofString c.label)]

def Choice.ofJson? : Json → Option Choice
  | .object members => do
    let members ← named? members
    let icon ← required? members "icon" Json.asString?
    let label ← required? members "label" Json.asString?
    return ⟨icon, label⟩
  | .array [icon, label] => return ⟨← icon.asString?, ← label.asString?⟩
  | _ => none

def choicesOfJson? : Json → Option (List Choice)
  | .array items => items.mapM Choice.ofJson?
  | _ => none

def Condition.toJson (c : Condition) : Json :=
  .object [(.ofString "setting", .ofString c.setting), (.ofString "value", c.value.toJson)]

def Condition.ofJson? : Json → Option Condition
  | .object members => do
    let members ← named? members
    let setting ← required? members "setting" Json.asString?
    let value ← required? members "value" Value.ofJson?
    return ⟨setting, value⟩
  | .array [setting, value] => return ⟨← setting.asString?, ← Value.ofJson? value⟩
  | _ => none

/-- A member that is left out where there is nothing to say. -/
def memberOf {α : Type} (name : String) (encode : α → Json) : Option α → List (Json.Text × Json)
  | some x => [(.ofString name, encode x)]
  | none => []

namespace Spec

def members (spec : Spec) : List (Json.Text × Json) :=
  (.ofString "kind", .ofString spec.kind.name) ::
  match spec with
  | boolean default => [(.ofString "default", .bool default)]
  | number default lower upper step =>
    (.ofString "default", .ofBinary64 default) ::
      memberOf "min" .ofBinary64 lower ++ memberOf "max" .ofBinary64 upper ++
      memberOf "step" .ofBinary64 step
  | choice default options =>
    [(.ofString "default", .ofInt default.toNat),
      (.ofString "options", .array (options.map Choice.toJson))]

def toJson (spec : Spec) : Json := .object spec.members

/-- The spec of a kind from the other members of its record. -/
def ofMembers? (members : List (String × Json)) : Kind → Option Spec
  | .boolean => (required? members "default" Json.asBool?).map boolean
  | .number => do
    let default ← required? members "default" Json.asBinary64?
    let lower ← optional? members "min" Json.asBinary64?
    let upper ← optional? members "max" Json.asBinary64?
    let step ← optional? members "step" Json.asBinary64?
    return number default lower upper step
  | .choice => do
    let default ← required? members "default" Json.asIndex?
    let options ← required? members "options" choicesOfJson?
    return choice default options

/-- The spec of a kind from the items behind it; limits at the end may be missing. -/
def ofItems? (items : List Json) : Kind → Option Spec
  | .boolean =>
    match items with
    | [default] => default.asBool?.map boolean
    | _ => none
  | .number =>
    match items with
    | default :: limits => do
      let default ← default.asBinary64?
      let limits ← limits.mapM (orNull? Json.asBinary64?)
      match limits with
      | [] => return number default none none none
      | [lower] => return number default lower none none
      | [lower, upper] => return number default lower upper none
      | [lower, upper, step] => return number default lower upper step
      | _ => none
    | [] => none
  | .choice =>
    match items with
    | [default, options] => return choice (← default.asIndex?) (← choicesOfJson? options)
    | _ => none

/-- The deepest nesting that a record of settings may have in all. -/
def depthLimit : Nat := 127

/-- The kind decides how the other members are read, and all of them must be sound. -/
def ofJson? (j : Json) : Option Spec :=
  if j.isSound depthLimit then
    match j with
    | .object members => do
      let members ← named? members
      let kind ← required? members "kind" fun name => name.asString?.bind Kind.ofName?
      ofMembers? members kind
    | .array (kind :: items) => do
      let kind ← kind.asString?.bind Kind.ofName?
      ofItems? items kind
    | _ => none
  else none

end Spec

namespace Descriptor

def members (d : Descriptor) : List (Json.Text × Json) :=
  [(.ofString "label", .ofString d.label), (.ofString "description", .ofString d.description)] ++
    memberOf "parameter" (fun c => .ofString (String.singleton c)) d.parameter ++
    memberOf "icon" .ofString d.icon ++
    [(.ofString "multiplier", .ofBinary64 d.multiplier)] ++
    memberOf "unit" .ofString d.unit ++
    memberOf "condition" Condition.toJson d.condition ++
    d.spec.members

def toJson (d : Descriptor) : Json := .object d.members

def ownMembers : List String :=
  ["label", "description", "parameter", "icon", "multiplier", "unit", "condition"]

/-- The kind of a descriptor: its name, or its place among the kinds. -/
def kindOfJson? : Json → Option Kind
  | .string name => name.string?.bind Kind.ofName?
  | .number literal =>
    match literal.value? with
    | some (.natural n) => Kind.all[n.toNat]?
    | _ => none
  | _ => none

/-- The members of the spec stand among those of the descriptor; all that are not the
descriptor's own must be sound. -/
def ofJson? : Json → Option Descriptor
  | .object members => do
    let members ← named? members
    let label ← required? members "label" Json.asString?
    let description ← required? members "description" Json.asString?
    let parameter ← optional? members "parameter" Json.asChar?
    let icon ← optional? members "icon" Json.asString?
    let multiplier ← defaulted? members "multiplier" 1 Json.asBinary64?
    let unit ← optional? members "unit" Json.asString?
    let condition ← optional? members "condition" Condition.ofJson?
    let others := members.filter (·.1 ∉ ownMembers)
    if others.all (·.2.isSound (Spec.depthLimit - 1)) then
      let kind ← required? others "kind" kindOfJson?
      let spec ← Spec.ofMembers? others kind
      return { label, description, parameter, icon, multiplier, unit, condition, spec }
    else none
  | _ => none

end Descriptor

end Setting

end ProbeCycle
