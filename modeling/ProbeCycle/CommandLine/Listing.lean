import ProbeCycle.Catalog.Standard
import ProbeCycle.Setting.Input

namespace ProbeCycle

open Setting (Descriptor)

/-- The line of an operation in the list of all. -/
def Operation.listLine (op : Operation) : String :=
  s!"{Text.padRight 18 op.key} {Text.padRight 9 (Word.code op.code)} {op.name}"

/-- The line of every operation. -/
def Catalog.listing (c : Catalog) : String :=
  "\n".intercalate (c.operations.values.map Operation.listLine)

namespace Setting

/-- A default, with the label of the option that it chooses. -/
def Descriptor.defaultText (d : Descriptor) : String :=
  match d.optionLabel? d.default with
  | some label => s!"{d.default.text} ({label})"
  | none => d.default.text

/-- The limits of a number that has both. -/
def Spec.rangeText : Spec → String
  | .number _ (some lower) (some upper) _ => s!" [{lower.text}..{upper.text}]"
  | _ => ""

def Condition.clause (c : Condition) : String :=
  s!" (when {c.setting} = {c.value.text})"

def Descriptor.letterText (d : Descriptor) : String :=
  String.singleton (d.parameter.getD '-')

/-- The line of a setting: letter, kind and default, then what else there is. -/
def Descriptor.line (d : Descriptor) (key : String) : String :=
  s!"  {Text.padRight 18 key} {d.letterText} {d.kind.name} default {d.defaultText}" ++
    d.spec.rangeText ++
    (match d.unit with
      | some unit => " " ++ unit
      | none => "") ++
    match d.condition with
    | some condition => condition.clause
    | none => ""

end Setting

/-- An operation with a line for each of its settings. -/
def Operation.overview (op : Operation) : String :=
  s!"{op.name} ({Word.code op.code})\n{op.description}\n" ++
    String.join (op.settings.entries.map fun (key, d) => "\n" ++ d.line key)

end ProbeCycle
