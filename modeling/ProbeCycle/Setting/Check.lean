import ProbeCycle.Error
import ProbeCycle.Setting.Descriptor

namespace ProbeCycle.Setting.Descriptor

/-- A setting takes the values of its own kind, and of the numbers only finite ones. -/
def accept (d : Descriptor) (key : String) (value : Value) : Except ProbeError Value :=
  if value.kind ≠ d.kind then .error (.kindMismatch key d.kind value.kind)
  else match value with
    | .number x => if x.isFinite then .ok value else .error (.invalidValue key x.text)
    | _ => .ok value

/-- A number lies between the limits that are given, a choice has an option. -/
def checkBounds (d : Descriptor) (key : String) (value : Value) : Except ProbeError Unit :=
  match d.spec, value with
  | .number _ lower upper _, .number x =>
    let lower := lower.getD (.infinite true)
    let upper := upper.getD (.infinite false)
    if x.less lower || upper.less x then .error (.outOfRange key x lower upper) else .ok ()
  | .choice _ options, .choice index =>
    if options.length ≤ index.toNat then .error (.noSuchOption key index options.length)
    else .ok ()
  | .boolean _, .boolean _ => .ok ()
  | _, _ => .error (.kindMismatch key d.kind value.kind)

end ProbeCycle.Setting.Descriptor
