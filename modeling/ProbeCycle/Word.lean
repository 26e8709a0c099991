import ProbeCycle.Binary64.Print

namespace ProbeCycle.Word

/-- A number as it stands in a word: plain digits, and no sign on a zero. -/
def number (x : Binary64) : String :=
  if x.equal 0 then "0" else x.text

/-- An address letter with its value. -/
def word (letter : Char) (value : String) : String :=
  String.singleton letter ++ value

/-- The word that selects a cycle. -/
def code (x : Binary64) : String :=
  word 'G' (number x)

end ProbeCycle.Word
