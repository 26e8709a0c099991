import ProbeCycle.Binary64.Print
import ProbeCycle.Toml.Reader

namespace ProbeCycle.Toml

/-- A value that stands on the line of its key. -/
inductive Scalar where
  | string (text : String)
  | integer (n : Int64)
  | decimal (x : Binary64)
  | bool (flag : Bool)
  deriving DecidableEq

def Scalar.toToml : Scalar → Toml
  | string text => .string text
  | integer n => .integer n
  | decimal x => .decimal x
  | bool flag => .bool flag

/-- A header with a line for each of its values. -/
structure Section where
  path : List String
  lines : List (String × Scalar)
  deriving DecidableEq

def writeChar : Char → List Char
  | '"' => ['\\', '"']
  | '\\' => ['\\', '\\']
  | '\x08' => ['\\', 'b']
  | '\x0c' => ['\\', 'f']
  | '\n' => ['\\', 'n']
  | '\r' => ['\\', 'r']
  | '\t' => ['\\', 't']
  | c => if isPlain c then [c] else '\\' :: 'u' :: (Text.hex4 c.toNat).map Char.toUpper

def writeString (text : String) : List Char :=
  '"' :: text.toList.flatMap writeChar ++ ['"']

def writeKey (key : String) : List Char :=
  if key ≠ "" ∧ key.toList.all isBareKeyChar then key.toList else writeString key

def writeInteger (n : Int) : List Char :=
  (if n < 0 then ['-'] else []) ++ Nat.toDigits 10 n.natAbs

/-- A finite number has at least one digit behind the point. -/
def writeDecimal : Binary64 → List Char
  | .finite negative units _ =>
    let digits := Binary64.magnitudeText units
    (if negative then ['-'] else []) ++ digits ++ if '.' ∈ digits then [] else ['.', '0']
  | .infinite negative => if negative then ['-', 'i', 'n', 'f'] else ['i', 'n', 'f']
  | .nan => ['n', 'a', 'n']

def writeScalar : Scalar → List Char
  | .string text => writeString text
  | .integer n => writeInteger n.toInt
  | .decimal x => writeDecimal x
  | .bool flag => (if flag then "true" else "false").toList

def writeLine (line : String × Scalar) : List Char :=
  writeKey line.1 ++ ' ' :: '=' :: ' ' :: writeScalar line.2 ++ ['\n']

def writePath : List String → List Char
  | [] => []
  | [key] => writeKey key
  | key :: path => writeKey key ++ '.' :: writePath path

def writeSection (s : Section) : List Char :=
  '[' :: writePath s.path ++ ']' :: '\n' :: s.lines.flatMap writeLine

def writeSections : List Section → List Char
  | [] => []
  | [s] => writeSection s
  | s :: rest => writeSection s ++ '\n' :: writeSections rest

def write (sections : List Section) : String := String.ofList (writeSections sections)

end ProbeCycle.Toml
