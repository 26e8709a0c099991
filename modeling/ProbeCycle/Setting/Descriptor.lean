import ProbeCycle.Setting.Value
import ProbeCycle.Binary64.Decimal

namespace ProbeCycle.Setting

/-- One of the options of a choice. -/
structure Choice where
  icon : String
  label : String
  deriving DecidableEq

/-- The limits of a number are advice: a value beyond them can be stored. -/
inductive Spec where
  | boolean (default : Bool)
  | number (default : Binary64) (lower upper step : Option Binary64)
  | choice (default : UInt64) (options : List Choice)
  deriving DecidableEq

namespace Spec

def kind : Spec → Kind
  | boolean _ => .boolean
  | number .. => .number
  | choice .. => .choice

def default : Spec → Value
  | boolean flag => .boolean flag
  | number x .. => .number x
  | choice index _ => .choice index

def options : Spec → List Choice
  | choice _ options => options
  | _ => []

end Spec

/-- The setting appears only while another setting of the operation holds `value`. -/
structure Condition where
  setting : String
  value : Value
  deriving DecidableEq

/-- What a setting is: its kind with default and limits, its address letter, and the condition under
which it appears. -/
structure Descriptor where
  label : String
  description : String
  parameter : Option Char
  icon : Option String
  multiplier : Binary64
  unit : Option String
  condition : Option Condition
  spec : Spec
  deriving DecidableEq

/-- A descriptor with nothing but texts and a spec: no letter, and a multiplier of one. -/
def Spec.describe (spec : Spec) (label description : String) : Descriptor where
  label
  description
  parameter := none
  icon := none
  multiplier := 1
  unit := none
  condition := none
  spec

namespace Descriptor

def boolean (label description : String) (default : Bool) : Descriptor :=
  (Spec.boolean default).describe label description

def number (label description : String) (default : Binary64) : Descriptor :=
  (Spec.number default none none none).describe label description

def choice (label description : String) (default : UInt64) (options : List Choice) :
    Descriptor :=
  (Spec.choice default options).describe label description

def kind (d : Descriptor) : Kind := d.spec.kind

def default (d : Descriptor) : Value := d.spec.default

def options (d : Descriptor) : List Choice := d.spec.options

/-- Limits are for numbers; other kinds have none to set. -/
def withRange (d : Descriptor) (lower upper : Binary64) : Descriptor :=
  match d.spec with
  | .number default _ _ step => { d with spec := .number default (some lower) (some upper) step }
  | _ => d

def withStep (d : Descriptor) (step : Binary64) : Descriptor :=
  match d.spec with
  | .number default lower upper _ => { d with spec := .number default lower upper (some step) }
  | _ => d

def withCondition (d : Descriptor) (setting : String) (value : Value) : Descriptor :=
  { d with condition := some ⟨setting, value⟩ }

/-- The label of the option that a value chooses. -/
def optionLabel? (d : Descriptor) : Value → Option String
  | .choice index => d.options[index.toNat]?.map Choice.label
  | _ => none

end Descriptor

/-- Equality with numbers compared as numbers. -/
def equalNumbers : Option Binary64 → Option Binary64 → Bool
  | some x, some y => x.equal y
  | none, none => true
  | _, _ => false

def Spec.equal : Spec → Spec → Bool
  | boolean a, boolean b => a == b
  | number x l u s, number x' l' u' s' =>
    x.equal x' && equalNumbers l l' && equalNumbers u u' && equalNumbers s s'
  | choice i os, choice j os' => i == j && os == os'
  | _, _ => false

def Condition.equal (a b : Condition) : Bool :=
  a.setting == b.setting && a.value.equal b.value

def Descriptor.equal (a b : Descriptor) : Bool :=
  a.label == b.label && a.description == b.description && a.parameter == b.parameter &&
    a.icon == b.icon && a.multiplier.equal b.multiplier && a.unit == b.unit &&
    (match a.condition, b.condition with
      | some c, some c' => c.equal c'
      | none, none => true
      | _, _ => false) &&
    a.spec.equal b.spec

end ProbeCycle.Setting
