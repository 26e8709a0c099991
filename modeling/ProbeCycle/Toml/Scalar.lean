import ProbeCycle.Binary64.Decimal
import ProbeCycle.Toml.Syntax

namespace ProbeCycle.Toml

def isSpace (c : Char) : Bool := c == ' ' || c == '\t'

def skipSpaces (cs : List Char) : List Char := cs.dropWhile isSpace

/-- What follows a line break. -/
def afterBreak? : List Char → Option (List Char)
  | '\n' :: rest => some rest
  | '\r' :: '\n' :: rest => some rest
  | _ => none

/-- A character that may stand for itself in strings and comments: no control but the tab. -/
def isPlain (c : Char) : Bool :=
  c == '\t' || (' ' ≤ c && c != '\x7f')

/-- The character at a place given in hexadecimal; surrogates are no characters. -/
def place? (digits : List Char) : Option Char := do
  let n ← Text.ofBase? 16 digits
  if n < 0xD800 ∨ (0xE000 ≤ n ∧ n < 0x110000) then some (Char.ofNat n) else none

def escape? : Char → Option Char
  | 'b' => some '\x08'
  | 't' => some '\t'
  | 'n' => some '\n'
  | 'f' => some '\x0c'
  | 'r' => some '\r'
  | '"' => some '"'
  | '\\' => some '\\'
  | _ => none

/-- The rest of a string between double quotes on one line. -/
def readBasic : List Char → Option (List Char × List Char)
  | [] => none
  | '"' :: rest => some ([], rest)
  | '\\' :: 'u' :: a :: b :: c :: d :: rest => do
    let x ← place? [a, b, c, d]
    let (text, rest) ← readBasic rest
    return (x :: text, rest)
  | '\\' :: 'U' :: a :: b :: c :: d :: e :: f :: g :: h :: rest => do
    let x ← place? [a, b, c, d, e, f, g, h]
    let (text, rest) ← readBasic rest
    return (x :: text, rest)
  | '\\' :: c :: rest => do
    let x ← escape? c
    let (text, rest) ← readBasic rest
    return (x :: text, rest)
  | c :: rest =>
    if isPlain c ∧ c ≠ '\\' then do
      let (text, rest) ← readBasic rest
      return (c :: text, rest)
    else none

/-- The rest of a string between triple double quotes. A backslash at the end of a line takes
the blanks and line breaks behind it away; `skipping` says that one has just been met. -/
def readBasicLines (skipping : Bool) : List Char → Option (List Char × List Char)
  | [] => none
  | '"' :: '"' :: '"' :: '"' :: '"' :: rest => some (['"', '"'], rest)
  | '"' :: '"' :: '"' :: '"' :: rest => some (['"'], rest)
  | '"' :: '"' :: '"' :: rest => some ([], rest)
  | '\\' :: 'u' :: a :: b :: c :: d :: rest => do
    let x ← place? [a, b, c, d]
    let (text, rest) ← readBasicLines false rest
    return (x :: text, rest)
  | '\\' :: 'U' :: a :: b :: c :: d :: e :: f :: g :: h :: rest => do
    let x ← place? [a, b, c, d, e, f, g, h]
    let (text, rest) ← readBasicLines false rest
    return (x :: text, rest)
  | '\\' :: c :: rest =>
    if (afterBreak? (skipSpaces (c :: rest))).isSome then readBasicLines true (c :: rest)
    else do
      let x ← escape? c
      let (text, rest) ← readBasicLines false rest
      return (x :: text, rest)
  | '\r' :: '\n' :: rest =>
    if skipping then readBasicLines true rest
    else (readBasicLines false rest).map fun (text, rest) => ('\n' :: text, rest)
  | c :: rest =>
    if skipping ∧ (isSpace c ∨ c = '\n') then readBasicLines true rest
    else if (isPlain c ∨ c = '\n') ∧ c ≠ '\\' then
      (readBasicLines false rest).map fun (text, rest) => (c :: text, rest)
    else none

/-- The rest of a string between single quotes on one line. -/
def readLiteral : List Char → Option (List Char × List Char)
  | [] => none
  | '\'' :: rest => some ([], rest)
  | c :: rest =>
    if isPlain c then (readLiteral rest).map fun (text, rest) => (c :: text, rest) else none

/-- The rest of a string between triple single quotes. -/
def readLiteralLines : List Char → Option (List Char × List Char)
  | [] => none
  | '\'' :: '\'' :: '\'' :: '\'' :: '\'' :: rest => some (['\'', '\''], rest)
  | '\'' :: '\'' :: '\'' :: '\'' :: rest => some (['\''], rest)
  | '\'' :: '\'' :: '\'' :: rest => some ([], rest)
  | '\r' :: '\n' :: rest =>
    (readLiteralLines rest).map fun (text, rest) => ('\n' :: text, rest)
  | c :: rest =>
    if isPlain c ∨ c = '\n' then
      (readLiteralLines rest).map fun (text, rest) => (c :: text, rest)
    else none

/-- A line break right behind the opening quotes is no part of the text. -/
def skipFirstBreak (cs : List Char) : List Char := (afterBreak? cs).getD cs

def readString : List Char → Option (List Char × List Char)
  | '"' :: '"' :: '"' :: rest => readBasicLines false (skipFirstBreak rest)
  | '"' :: rest => readBasic rest
  | '\'' :: '\'' :: '\'' :: rest => readLiteralLines (skipFirstBreak rest)
  | '\'' :: rest => readLiteral rest
  | _ => none

/-- The rest of a digit run, behind its first digit; underscores are dropped. -/
def readRun (isDigit : Char → Bool) : List Char → List Char × List Char
  | '_' :: c :: rest =>
    if isDigit c then
      let (digits, rest) := readRun isDigit rest
      (c :: digits, rest)
    else ([], '_' :: c :: rest)
  | c :: rest =>
    if isDigit c then
      let (digits, rest) := readRun isDigit rest
      (c :: digits, rest)
    else ([], c :: rest)
  | [] => ([], [])

/-- Digits, with single underscores between them. -/
def readDigits? (isDigit : Char → Bool) : List Char → Option (List Char × List Char)
  | c :: rest =>
    if isDigit c then
      let (digits, rest) := readRun isDigit rest
      some (c :: digits, rest)
    else none
  | [] => none

def readSign : List Char → List Char × List Char
  | '+' :: rest => (['+'], rest)
  | '-' :: rest => (['-'], rest)
  | cs => ([], cs)

/-- A decimal whole number without superfluous zeros in front, as its sign and digits. -/
def readWhole? (cs : List Char) : Option (List Char × List Char) :=
  let (sign, cs) := readSign cs
  match cs with
  | '0' :: rest => some (sign ++ ['0'], rest)
  | cs => (readDigits? Char.isDigit cs).map fun (digits, rest) => (sign ++ digits, rest)

def readExponent? : List Char → Option (List Char × List Char)
  | c :: rest =>
    if c = 'e' ∨ c = 'E' then
      let (sign, rest) := readSign rest
      (readDigits? Char.isDigit rest).map fun (digits, rest) => ('e' :: sign ++ digits, rest)
    else none
  | [] => none

/-- What makes a number decimal: a fraction, an exponent, or both. -/
def readPoint? : List Char → Option (List Char × List Char)
  | '.' :: rest => do
    let (digits, rest) ← readDigits? Char.isDigit rest
    match readExponent? rest with
    | some (exponent, rest) => return ('.' :: digits ++ exponent, rest)
    | none => return ('.' :: digits, rest)
  | cs => readExponent? cs

def readSpecial? (cs : List Char) : Option (Binary64 × List Char) :=
  let (sign, rest) := readSign cs
  match rest with
  | 'i' :: 'n' :: 'f' :: rest => some (.infinite (sign = ['-']), rest)
  | 'n' :: 'a' :: 'n' :: rest => some (.nan, rest)
  | _ => none

/-- A decimal number. One too large becomes infinite, which only a negative one may. -/
def readDecimal? (cs : List Char) : Option (Binary64 × List Char) :=
  match readWhole? cs with
  | some (whole, rest) =>
    match readPoint? rest with
    | some (point, rest) =>
      match Binary64.read? (whole ++ point) with
      | some x => if x = .infinite false then none else some (x, rest)
      | none => none
    | none => readSpecial? cs
  | none => readSpecial? cs

def integerOf? (n : Int) : Option Int64 :=
  if -9223372036854775808 ≤ n ∧ n ≤ 9223372036854775807 then some (.ofInt n) else none

def readBased? (base : Nat) (isDigit : Char → Bool) (cs : List Char) :
    Option (Int64 × List Char) := do
  let (digits, rest) ← readDigits? isDigit cs
  let n ← Text.ofBase? base digits
  return (← integerOf? n, rest)

def readInteger? : List Char → Option (Int64 × List Char)
  | '0' :: 'x' :: rest => readBased? 16 (fun c => (Text.hexDigit? c).isSome) rest
  | '0' :: 'o' :: rest => readBased? 8 (fun c => '0' ≤ c && c ≤ '7') rest
  | '0' :: 'b' :: rest => readBased? 2 (fun c => c == '0' || c == '1') rest
  | cs => do
    let (whole, rest) ← readWhole? cs
    let (negative, digits) := Text.splitSign whole
    let n := Nat.ofDigitChars 10 digits 0
    return (← integerOf? (if negative then -n else n), rest)

def twoDigits? : List Char → Option (Nat × List Char)
  | a :: b :: rest =>
    if a.isDigit ∧ b.isDigit then some (Nat.ofDigitChars 10 [a, b] 0, rest) else none
  | _ => none

def daysOfMonth (year month : Nat) : Nat :=
  if month = 2 then
    if year % 4 = 0 ∧ (year % 100 ≠ 0 ∨ year % 400 = 0) then 29 else 28
  else if month ∈ [4, 6, 9, 11] then 30
  else 31

/-- The rest behind a date, of which only the form matters. -/
def afterDate? (cs : List Char) : Option (List Char) := do
  let (century, cs) ← twoDigits? cs
  let (year, cs) ← twoDigits? cs
  let '-' :: cs := cs | none
  let (month, cs) ← twoDigits? cs
  let '-' :: cs := cs | none
  let (day, cs) ← twoDigits? cs
  if 1 ≤ month ∧ month ≤ 12 ∧ 1 ≤ day ∧ day ≤ daysOfMonth (100 * century + year) month then
    some cs
  else none

/-- The rest behind an hour and a minute. -/
def afterMinute? (cs : List Char) : Option (List Char) := do
  let (hour, cs) ← twoDigits? cs
  let ':' :: cs := cs | none
  let (minute, cs) ← twoDigits? cs
  if hour ≤ 23 ∧ minute ≤ 59 then some cs else none

/-- The rest behind a time of day, with or without a fraction of a second. -/
def afterTime? (cs : List Char) : Option (List Char) := do
  let ':' :: cs ← afterMinute? cs | none
  let (second, cs) ← twoDigits? cs
  if 60 < second then none
  else match cs with
    | '.' :: c :: rest => if c.isDigit then some (rest.dropWhile Char.isDigit) else some cs
    | _ => some cs

/-- The rest behind a distance from universal time, or all where there is none. -/
def afterOffset (cs : List Char) : List Char :=
  match cs with
  | 'Z' :: rest => rest
  | 'z' :: rest => rest
  | '+' :: rest => (afterMinute? rest).getD cs
  | '-' :: rest => (afterMinute? rest).getD cs
  | _ => cs

/-- The rest behind a date, a time, or both. -/
def afterMoment? (cs : List Char) : Option (List Char) :=
  match afterDate? cs with
  | none => afterTime? cs
  | some [] => some []
  | some (c :: rest) =>
    if c = 'T' ∨ c = 't' ∨ c = ' ' then
      match afterTime? rest with
      | some rest => some (afterOffset rest)
      | none => some (c :: rest)
    else some (c :: rest)

/-- A value that starts like a number. -/
def readNumeral? (cs : List Char) : Option (Toml × List Char) :=
  match afterMoment? cs with
  | some rest => some (.moment, rest)
  | none =>
    match readDecimal? cs with
    | some (x, rest) => some (.decimal x, rest)
    | none => (readInteger? cs).map fun (n, rest) => (.integer n, rest)

end ProbeCycle.Toml
