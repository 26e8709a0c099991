import ProbeCycle.Json.Number

namespace ProbeCycle.Json

def ofString (s : String) : Json := .string (.ofString s)

def ofInt (n : Int) : Json := .number (.ofInt n)

/-- A finite number as its shortest literal; JSON has no other numbers. -/
def ofBinary64 : Binary64 → Json
  | .finite negative units _ => .number (.ofMagnitude negative units)
  | _ => .null

/-- Only quotes, backslashes and control characters are escaped. -/
def writePiece : Piece → List Char
  | .char '"' => ['\\', '"']
  | .char '\\' => ['\\', '\\']
  | .char '\x08' => ['\\', 'b']
  | .char '\x0c' => ['\\', 'f']
  | .char '\n' => ['\\', 'n']
  | .char '\r' => ['\\', 'r']
  | .char '\t' => ['\\', 't']
  | .char c => if c < ' ' then '\\' :: 'u' :: Text.hex4 c.toNat else [c]
  | .half unit => '\\' :: 'u' :: Text.hex4 unit

def writeText (t : Text) : List Char :=
  '"' :: t.flatMap writePiece ++ ['"']

def writeNumber (l : NumberLiteral) : List Char :=
  (if l.negative then ['-'] else []) ++ l.whole ++
    (if l.fraction = [] then [] else '.' :: l.fraction) ++
    match l.exponent with
    | some (negative, digits) => 'e' :: (if negative then '-' else '+') :: digits
    | none => []

def writeBool (flag : Bool) : List Char :=
  (if flag then "true" else "false").toList

/-- Text either has no blanks at all, or a line for each item and member. -/
inductive Layout where
  | compact
  | indented
  deriving DecidableEq

/-- What stands before an item, a member and the end of the list: a line break and two blanks for
each level around. -/
def Layout.newline : Layout → Nat → List Char
  | compact, _ => []
  | indented, level => '\n' :: List.replicate (2 * level) ' '

/-- What stands between a colon and the value of a member. -/
def Layout.gap : Layout → List Char
  | compact => []
  | indented => [' ']

mutual

/-- The text of a value with so many levels around it. -/
def write (layout : Layout) (level : Nat) : Json → List Char
  | .null => "null".toList
  | .bool flag => writeBool flag
  | .number literal => writeNumber literal
  | .string text => writeText text
  | .array [] => ['[', ']']
  | .array (item :: items) =>
    '[' :: writeItems layout (level + 1) (item :: items) ++ layout.newline level ++ [']']
  | .object [] => ['{', '}']
  | .object (member :: members) =>
    '{' :: writeMembers layout (level + 1) (member :: members) ++ layout.newline level ++ ['}']

def writeItems (layout : Layout) (level : Nat) : List Json → List Char
  | [] => []
  | [item] => layout.newline level ++ write layout level item
  | item :: items =>
    layout.newline level ++ write layout level item ++ ',' :: writeItems layout level items

def writeMembers (layout : Layout) (level : Nat) : List (Text × Json) → List Char
  | [] => []
  | [(name, value)] =>
    layout.newline level ++ writeText name ++ ':' :: layout.gap ++ write layout level value
  | (name, value) :: members =>
    layout.newline level ++ writeText name ++ ':' :: layout.gap ++ write layout level value ++
      ',' :: writeMembers layout level members

end

def toText (layout : Layout) (j : Json) : String := String.ofList (j.write layout 0)

def toCompact (j : Json) : String := j.toText .compact

def toIndented (j : Json) : String := j.toText .indented

end ProbeCycle.Json
