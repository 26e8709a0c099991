import ProbeCycle.Toml.Scalar

namespace ProbeCycle.Toml

/-- Values nest at most 79 deep, and so many parts a dotted key has at most. -/
def depthLimit : Nat := 79

def isBareKeyChar (c : Char) : Bool := c.isAlphanum || c == '-' || c == '_'

def readSimpleKey : List Char → Option (String × List Char)
  | '"' :: rest => (readBasic rest).map fun (text, rest) => (String.ofList text, rest)
  | '\'' :: rest => (readLiteral rest).map fun (text, rest) => (String.ofList text, rest)
  | cs =>
    let name := cs.takeWhile isBareKeyChar
    if name = [] then none else some (String.ofList name, cs.dropWhile isBareKeyChar)

/-- The parts of a dotted key. -/
def readParts : Nat → List Char → Option (List String × List Char)
  | 0, _ => none
  | fuel + 1, cs => do
    let (part, rest) ← readSimpleKey (skipSpaces cs)
    match skipSpaces rest with
    | '.' :: rest =>
      let (parts, rest) ← readParts fuel rest
      return (part :: parts, rest)
    | rest => return ([part], rest)

/-- A dotted key: the path in front of its last part, and that part. -/
def readKey (cs : List Char) : Option ((List String × String) × List Char) := do
  let (parts, rest) ← readParts depthLimit cs
  let key ← parts.getLast?
  return ((parts.dropLast, key), rest)

def skipComment : List Char → List Char
  | '#' :: rest => rest.dropWhile isPlain
  | cs => cs

/-- What follows the rest of a line on which nothing but a comment is left. -/
def afterLine? (cs : List Char) : Option (List Char) :=
  match skipComment (skipSpaces cs) with
  | [] => some []
  | rest => afterBreak? rest

/-- Skip blanks, line breaks and comments, as they may stand between the items of an array. -/
def skipLines : Nat → List Char → List Char
  | 0, cs => cs
  | fuel + 1, cs =>
    match skipComment (skipSpaces cs) with
    | '\n' :: rest => skipLines fuel rest
    | '\r' :: '\n' :: rest => skipLines fuel rest
    | rest => rest

mutual

/-- Every step takes at least one character, so the length of the text bounds the depth of the
recursion. -/
def readValue (depth : Nat) : Nat → List Char → Option (Toml × List Char)
  | 0, _ => none
  | fuel + 1, cs =>
    match cs with
    | [] => none
    | '"' :: _ => (readString cs).map fun (text, rest) => (.string (String.ofList text), rest)
    | '\'' :: _ => (readString cs).map fun (text, rest) => (.string (String.ofList text), rest)
    | 't' :: 'r' :: 'u' :: 'e' :: rest => some (.bool true, rest)
    | 'f' :: 'a' :: 'l' :: 's' :: 'e' :: rest => some (.bool false, rest)
    | '[' :: rest =>
      if depth = 0 then none
      else (readItems (depth - 1) fuel rest).map fun (items, rest) => (.array items, rest)
    | '{' :: rest =>
      if depth = 0 then none
      else match skipSpaces rest with
        | '}' :: rest => some (.table [], rest)
        | rest =>
          (readMembers (depth - 1) fuel [] rest).map fun (entries, rest) =>
            (.table (finishEntries entries), rest)
    | c :: _ =>
      if c = '+' ∨ c = '-' ∨ c.isDigit then readNumeral? cs
      else (readSpecial? cs).map fun (x, rest) => (.decimal x, rest)

/-- Items up to the closing bracket; a comma may stand before it. -/
def readItems (depth : Nat) : Nat → List Char → Option (List Toml × List Char)
  | 0, _ => none
  | fuel + 1, cs =>
    match skipLines cs.length cs with
    | ']' :: rest => some ([], rest)
    | cs => do
      let (item, rest) ← readValue depth fuel cs
      match skipLines rest.length rest with
      | ']' :: rest => return ([item], rest)
      | ',' :: rest =>
        let (items, rest) ← readItems depth fuel rest
        return (item :: items, rest)
      | _ => none

/-- Members of a table on one line, up to the closing brace. -/
def readMembers (depth : Nat) : Nat → Entries → List Char → Option (Entries × List Char)
  | 0, _, _ => none
  | fuel + 1, entries, cs => do
    let ((path, key), rest) ← readKey cs
    match rest with
    | '=' :: rest =>
      let (value, rest) ← readValue depth fuel (skipSpaces rest)
      let entries ← assign path key value entries
      match skipSpaces rest with
      | '}' :: rest => return (entries, rest)
      | ',' :: rest => readMembers depth fuel entries rest
      | _ => none
    | _ => none

end

/-- One header or one key with its value, up to the end of its line. -/
def readStatement (d : Document) (cs : List Char) : Option (Document × List Char) :=
  match cs with
  | '[' :: '[' :: rest => do
    let ((path, key), rest) ← readKey rest
    match rest with
    | ']' :: ']' :: rest => return (← d.openElement path key, ← afterLine? rest)
    | _ => none
  | '[' :: rest => do
    let ((path, key), rest) ← readKey rest
    match rest with
    | ']' :: rest => return (← d.openTable path key, ← afterLine? rest)
    | _ => none
  | cs => do
    let ((path, key), rest) ← readKey cs
    match rest with
    | '=' :: rest =>
      let (value, rest) ← readValue depthLimit (rest.length + 1) (skipSpaces rest)
      return (← d.assign path key value, ← afterLine? rest)
    | _ => none

def readLines : Nat → Document → List Char → Option Document
  | 0, _, _ => none
  | fuel + 1, d, cs =>
    match skipSpaces cs with
    | [] => some d
    | '#' :: rest => do readLines fuel d (← afterLine? ('#' :: rest))
    | '\n' :: rest => readLines fuel d rest
    | '\r' :: '\n' :: rest => readLines fuel d rest
    | cs => do
      let (d, rest) ← readStatement d cs
      readLines fuel d rest

/-- The entries of a whole document of TOML 1.0; a byte order mark may stand in front. -/
def read? (text : String) : Option (List (String × Toml)) := do
  let cs := match text.toList with
    | '\uFEFF' :: rest => rest
    | cs => cs
  let d ← readLines (cs.length + 1) .start cs
  return finishEntries (← d.close)

end ProbeCycle.Toml
