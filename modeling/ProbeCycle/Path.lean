import ProbeCycle.Text

namespace ProbeCycle.Path

/-- What stands between the slashes. -/
def pieces (path : String) : List String :=
  (Text.splitAll '/' path.toList).map String.ofList

/-- The names along a path; slashes without a name between them count once. -/
def names (path : String) : List String :=
  (pieces path).filter (· ≠ "")

/-- The names that lead somewhere else: the name `.` stays at a directory, and `..` leads one up. -/
def steps (path : String) : List String :=
  (names path).filter (· ≠ ".")

/-- A path from the root, not from the working directory. -/
def isAbsolute (path : String) : Bool :=
  path.toList.head? == some '/'

/-- Such a path can only lead to a directory. -/
def endsInSlash (path : String) : Bool :=
  path.toList.getLast? == some '/'

/-- The path without its last step. -/
def parent (path : String) : String :=
  let trim := List.dropWhile (· ∈ ["", "."])
  "/".intercalate (trim ((trim (pieces path).reverse).drop 1)).reverse

/-- The part of the last name behind its last point, unless nothing stands before that point. -/
def suffix? (path : String) : Option String :=
  match (steps path).getLast? with
  | none => none
  | some name =>
    if name = ".." then none
    else match (Text.splitAll '.' name.toList).reverse with
      | _ :: [] :: [] => none
      | last :: _ :: _ => some (String.ofList last)
      | _ => none

/-- The most bytes of a name. -/
def nameLimit : Nat := 255

/-- The most bytes of a path. -/
def limit : Nat := 4095

end ProbeCycle.Path
