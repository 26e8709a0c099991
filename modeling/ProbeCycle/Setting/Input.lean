import ProbeCycle.Setting.Check
import ProbeCycle.Text

namespace ProbeCycle.Setting

/-- Words for the two flags, in any case. Only ASCII letters are folded: no other letter has one
of those in these words as its lower case. -/
def flag? (cs : List Char) : Option Bool :=
  let word := String.ofList (cs.map Char.toLower)
  if word ∈ ["true", "1", "yes", "on"] then some true
  else if word ∈ ["false", "0", "no", "off"] then some false
  else none

/-- The place of an option, given as a number or by its label. -/
def option? (options : List Choice) (cs : List Char) : Option UInt64 :=
  match Text.index? cs with
  | some index => some index
  | none =>
    (options.findIdx? fun o => Text.sameLetters o.label.toList cs).map UInt64.ofNat

def Spec.read? (spec : Spec) (cs : List Char) : Option Value :=
  match spec with
  | .boolean _ => (flag? cs).map .boolean
  | .number .. => (Binary64.read? cs).map .number
  | .choice _ options => (option? options cs).map .choice

/-- The value that a text stands for, blanks around it aside. -/
def Descriptor.parse (d : Descriptor) (key input : String) : Except ProbeError Value :=
  match d.spec.read? (Text.trim input.toList) with
  | some value => d.accept key value
  | none => .error (.invalidValue key input)

end ProbeCycle.Setting
