import ProbeCycle.Json.Number

namespace ProbeCycle.Json

def asString? : Json → Option String
  | .string text => text.string?
  | _ => none

def asBool? : Json → Option Bool
  | .bool flag => some flag
  | _ => none

def asNumber? : Json → Option Number
  | .number literal => literal.value?
  | _ => none

/-- Any number serves as a decimal number. -/
def asBinary64? (j : Json) : Option Binary64 := j.asNumber?.map Number.toBinary64

/-- Only a whole number without sign serves as an index. -/
def asIndex? (j : Json) : Option UInt64 :=
  match j.asNumber? with
  | some (.natural n) => some n
  | _ => none

def asChar? (j : Json) : Option Char :=
  match j.asString?.map String.toList with
  | some [c] => some c
  | _ => none

/-- A value that may be missing: `null` stands for none. -/
def orNull? {α : Type} (decode : Json → Option α) : Json → Option (Option α)
  | .null => some none
  | j => (decode j).map some

/-- Members under the texts of their names. -/
def named? (members : List (Text × Json)) : Option (List (String × Json)) :=
  members.mapM fun (name, value) => name.string?.map (·, value)

/-- The member of a name, if there is one; none at all where there are several. -/
def unique? (members : List (String × Json)) (name : String) : Option (Option Json) :=
  match members.filter (·.1 == name) with
  | [] => some none
  | [(_, value)] => some (some value)
  | _ => none

def required? {α : Type} (members : List (String × Json)) (name : String)
    (decode : Json → Option α) : Option α := do
  (← unique? members name).bind decode

def defaulted? {α : Type} (members : List (String × Json)) (name : String) (default : α)
    (decode : Json → Option α) : Option α := do
  match ← unique? members name with
  | some value => decode value
  | none => return default

def optional? {α : Type} (members : List (String × Json)) (name : String)
    (decode : Json → Option α) : Option (Option α) :=
  defaulted? members name none (orNull? decode)

mutual

/-- Whether every literal inside stands for something and nesting is at most `depth` deep. -/
def isSound (depth : Nat) : Json → Bool
  | .null => true
  | .bool _ => true
  | .number literal => literal.value?.isSome
  | .string text => text.chars?.isSome
  | .array items =>
    match depth with
    | 0 => false
    | depth + 1 => areSound depth items
  | .object members =>
    match depth with
    | 0 => false
    | depth + 1 => membersAreSound depth members

def areSound (depth : Nat) : List Json → Bool
  | [] => true
  | item :: items => item.isSound depth && areSound depth items

def membersAreSound (depth : Nat) : List (Text × Json) → Bool
  | [] => true
  | (name, value) :: members =>
    name.chars?.isSome && value.isSound depth && membersAreSound depth members

end

end ProbeCycle.Json
