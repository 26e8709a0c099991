import ProbeCycle.Json.Syntax
import ProbeCycle.Text.Numeral

namespace ProbeCycle.Json

def isBlank (c : Char) : Bool := c == ' ' || c == '\n' || c == '\t' || c == '\r'

def skipBlanks (cs : List Char) : List Char := cs.dropWhile isBlank

def Piece.ofUnit (unit : Nat) : Piece :=
  if 0xD800 ≤ unit ∧ unit < 0xE000 then .half unit else .char (Char.ofNat unit)

def escape? : Char → Option Char
  | '"' => some '"'
  | '\\' => some '\\'
  | '/' => some '/'
  | 'b' => some '\x08'
  | 'f' => some '\x0c'
  | 'n' => some '\n'
  | 'r' => some '\r'
  | 't' => some '\t'
  | _ => none

/-- The rest of a string literal, behind its opening quote. -/
def readString : List Char → Option (Text × List Char)
  | [] => none
  | '"' :: rest => some ([], rest)
  | '\\' :: 'u' :: a :: b :: c :: d :: rest => do
    let unit ← Text.ofBase? 16 [a, b, c, d]
    let (text, rest) ← readString rest
    return (.ofUnit unit :: text, rest)
  | '\\' :: c :: rest => do
    let c ← escape? c
    let (text, rest) ← readString rest
    return (.char c :: text, rest)
  | c :: rest =>
    if c < ' ' then none
    else do
      let (text, rest) ← readString rest
      return (.char c :: text, rest)

/-- An exponent, if one follows: the letter, an optional sign and at least one digit. -/
def readExponent : List Char → Option (Option (Bool × List Char) × List Char)
  | [] => some (none, [])
  | c :: rest =>
    if c = 'e' ∨ c = 'E' then
      let (negative, rest) := match rest with
        | '+' :: after => (false, after)
        | '-' :: after => (true, after)
        | _ => (false, rest)
      let digits := rest.takeWhile Char.isDigit
      if digits = [] then none
      else some (some (negative, digits), rest.dropWhile Char.isDigit)
    else some (none, c :: rest)

/-- A fraction, if a point follows. -/
def readFraction : List Char → Option (List Char × List Char)
  | '.' :: rest =>
    let digits := rest.takeWhile Char.isDigit
    if digits = [] then none else some (digits, rest.dropWhile Char.isDigit)
  | cs => some ([], cs)

/-- A minus sign, if there is one. -/
def readMinus : List Char → Bool × List Char
  | '-' :: rest => (true, rest)
  | cs => (false, cs)

/-- A number literal; only zero starts with the digit zero. -/
def readNumber (cs : List Char) : Option (NumberLiteral × List Char) := do
  let (negative, cs) := readMinus cs
  let whole := cs.takeWhile Char.isDigit
  if whole = [] ∨ (whole.head? = some '0' ∧ whole ≠ ['0']) then none
  else
    let (fraction, rest) ← readFraction (cs.dropWhile Char.isDigit)
    let (exponent, rest) ← readExponent rest
    return (⟨negative, whole, fraction, exponent⟩, rest)

/-- The rest behind a mark, with blanks in front of the mark. -/
def behind? (mark : Char) (cs : List Char) : Option (List Char) :=
  match skipBlanks cs with
  | [] => none
  | c :: rest => if c = mark then some rest else none

/-- A list that starts with an item: a mark that closes it comes next, or a comma and more. -/
def continued? {α : Type} (close : Char) (item : α)
    (more : List Char → Option (List α × List Char)) (cs : List Char) :
    Option (List α × List Char) :=
  ((behind? close cs).map fun rest => ([item], rest)) <|>
    ((behind? ',' cs).bind more).map fun (items, rest) => (item :: items, rest)

mutual

def readValue : Nat → List Char → Option (Json × List Char)
  | 0, _ => none
  | fuel + 1, cs =>
    match skipBlanks cs with
    | 'n' :: 'u' :: 'l' :: 'l' :: rest => some (.null, rest)
    | 't' :: 'r' :: 'u' :: 'e' :: rest => some (.bool true, rest)
    | 'f' :: 'a' :: 'l' :: 's' :: 'e' :: rest => some (.bool false, rest)
    | '"' :: rest => (readString rest).map fun (text, rest) => (.string text, rest)
    | '[' :: rest =>
      ((behind? ']' rest).map fun rest => (.array [], rest)) <|>
        (readItems fuel rest).map fun (items, rest) => (.array items, rest)
    | '{' :: rest =>
      ((behind? '}' rest).map fun rest => (.object [], rest)) <|>
        (readMembers fuel rest).map fun (members, rest) => (.object members, rest)
    | cs => (readNumber cs).map fun (literal, rest) => (.number literal, rest)

/-- Items up to the closing bracket. -/
def readItems : Nat → List Char → Option (List Json × List Char)
  | 0, _ => none
  | fuel + 1, cs => do
    let (item, rest) ← readValue fuel cs
    continued? ']' item (readItems fuel) rest

/-- Members up to the closing brace. -/
def readMembers : Nat → List Char → Option (List (Text × Json) × List Char)
  | 0, _ => none
  | fuel + 1, cs => do
    let (name, rest) ← readString (← behind? '"' cs)
    let (value, rest) ← readValue fuel (← behind? ':' rest)
    continued? '}' (name, value) (readMembers fuel) rest

end

/-- The value that a whole text spells. Every step takes at least one character, so twice the length
of the text bounds the depth of the recursion. -/
def read? (text : String) : Option Json :=
  let cs := text.toList
  match readValue (2 * cs.length + 2) cs with
  | some (value, rest) => if skipBlanks rest = [] then some value else none
  | none => none

end ProbeCycle.Json
