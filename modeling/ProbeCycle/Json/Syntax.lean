namespace ProbeCycle

/-- Digits before the point, after it (none where there is no point), and in an exponent with its
sign. -/
structure NumberLiteral where
  negative : Bool
  whole : List Char
  fraction : List Char
  exponent : Option (Bool × List Char)
  deriving DecidableEq

namespace Json

/-- A character of a string, or one half of a surrogate pair as an escape can give it. -/
inductive Piece where
  | char (c : Char)
  | half (unit : Nat)
  deriving DecidableEq

abbrev Text := List Piece

end Json

/-- JSON as it is written: what number or text a literal stands for is a question for its reader.
Members stand in the order written, and a name may come more than once. -/
inductive Json where
  | null
  | bool (flag : Bool)
  | number (literal : NumberLiteral)
  | string (text : Json.Text)
  | array (items : List Json)
  | object (members : List (Json.Text × Json))

namespace Json

def Text.ofString (s : String) : Text := s.toList.map .char

/-- The characters of a string literal; two halves of a pair make one, and a stray half none. -/
def Text.chars? : Text → Option (List Char)
  | [] => some []
  | .char c :: rest => (chars? rest).map (c :: ·)
  | .half high :: .half low :: rest =>
    if high < 0xDC00 ∧ 0xDC00 ≤ low then
      (chars? rest).map (Char.ofNat (0x10000 + (high - 0xD800) * 0x400 + (low - 0xDC00)) :: ·)
    else none
  | .half _ :: _ => none

def Text.string? (t : Text) : Option String := t.chars?.map String.ofList

end Json

end ProbeCycle
