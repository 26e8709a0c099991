import ProbeCycle.Path

namespace ProbeCycle

inductive FileError where
  | notFound
  | notDirectory
  | isDirectory
  | alreadyExists
  | nameTooLong
  | zeroInPath
  | notText
  | other (text : String)
  deriving DecidableEq

def FileError.message : FileError → String
  | notFound => "No such file or directory (os error 2)"
  | notDirectory => "Not a directory (os error 20)"
  | isDirectory => "Is a directory (os error 21)"
  | alreadyExists => "File exists (os error 17)"
  | nameTooLong => "File name too long (os error 36)"
  | zeroInPath => "file name contained an unexpected NUL byte"
  | notText => "stream did not contain valid UTF-8"
  | other text => text

/-- A file either holds a text or bytes that are none. -/
inductive FileTree.Node where
  | text (content : String)
  | binary
  | directory
  deriving DecidableEq

/-- Where a chain of names starts: some levels above the working directory, or at the root. -/
inductive FileTree.Origin where
  | above (levels : Nat)
  | root
  deriving DecidableEq

structure FileTree.Place where
  origin : FileTree.Origin
  names : List String
  deriving DecidableEq

/-- What stands at each place; of several nodes for one place the first counts. -/
structure FileTree where
  nodes : List (FileTree.Place × FileTree.Node)

/-- What the files are after something was tried, and why it was given up if it was. -/
structure FileTree.Attempt (ε : Type) where
  files : FileTree
  failure : Option ε

namespace FileTree

def Origin.parent : Origin → Origin
  | above levels => above (levels + 1)
  | root => root

def Place.parent (place : Place) : Place :=
  if place.names = [] then ⟨place.origin.parent, []⟩ else ⟨place.origin, place.names.dropLast⟩

/-- One name further. -/
def Place.next (place : Place) (name : String) : Place :=
  if name = "." then place
  else if name = ".." then place.parent
  else ⟨place.origin, place.names ++ [name]⟩

def Place.start (path : String) : Place :=
  ⟨if Path.isAbsolute path then .root else .above 0, []⟩

def empty : FileTree := ⟨[]⟩

instance : EmptyCollection FileTree := ⟨empty⟩

def node? (t : FileTree) (place : Place) : Option Node :=
  if place.names = [] then some .directory else t.nodes.lookup place

def put (t : FileTree) (place : Place) (node : Node) : FileTree :=
  ⟨(place, node) :: t.nodes⟩

/-- Refuse what cannot be a path, whatever the files are. -/
def checkPath (path : String) : Except FileError Unit :=
  if '\x00' ∈ path.toList then .error .zeroInPath
  else if Path.limit < path.utf8ByteSize then .error .nameTooLong
  else .ok ()

/-- One name further from a place, which must be a directory. -/
def step (t : FileTree) (place : Place) (name : String) : Except FileError Place :=
  match t.node? place with
  | some .directory =>
    if Path.nameLimit < name.utf8ByteSize then .error .nameTooLong else .ok (place.next name)
  | some _ => .error .notDirectory
  | none => .error .notFound

/-- The place that names lead to from where a path starts, whether or not something stands
there. -/
def follow (t : FileTree) (path : String) (names : List String) : Except FileError Place := do
  checkPath path
  if path = "" then .error .notFound else names.foldlM t.step (Place.start path)

def resolve (t : FileTree) (path : String) : Except FileError Place :=
  t.follow path (Path.names path)

def contains (t : FileTree) (path : String) : Bool :=
  match t.resolve path with
  | .ok place =>
    match t.node? place with
    | some .directory => true
    | some _ => !Path.endsInSlash path
    | none => false
  | .error _ => false

def read (t : FileTree) (path : String) : Except FileError String := do
  let place ← t.resolve path
  match t.node? place with
  | none => .error .notFound
  | some .directory => .error .isDirectory
  | some node =>
    if Path.endsInSlash path then .error .notDirectory
    else match node with
      | .text content => .ok content
      | _ => .error .notText

/-- Put a file where there is none, or in place of another one. At the last name of a path that
ends in a slash no file can stand, so only what is before it is looked at. -/
def write (t : FileTree) (path : String) (node : Node) : Except FileError FileTree :=
  if Path.endsInSlash path then do
    let _ ← t.follow path ((Path.names path).dropLast ++ ["."])
    .error .isDirectory
  else do
    let place ← t.resolve path
    if t.node? place = some .directory then .error .isDirectory else .ok (t.put place node)

/-- Make the directories along the names that are missing. A file stands in the way of a directory
to be made at the last name, and at any name once one had to be made; before that it only turns
out to be no directory. -/
def makeAlong (t : FileTree) (place : Place) (made : Bool) : List String → Attempt FileError
  | [] => ⟨t, none⟩
  | name :: rest =>
    let next := place.next name
    if Path.nameLimit < name.utf8ByteSize then ⟨t, some .nameTooLong⟩
    else match t.node? next with
      | some .directory => makeAlong t next made rest
      | none => makeAlong (t.put next .directory) next true rest
      | some _ => ⟨t, some (if made ∨ rest = [] then .alreadyExists else .notDirectory)⟩

def makeDirectory (t : FileTree) (path : String) : Attempt FileError :=
  match checkPath path with
  | .error e => ⟨t, some e⟩
  | .ok _ => t.makeAlong (Place.start path) false (Path.steps path)

/-- Write a file and make the directories on the way to it, which stay even if it cannot be
written. -/
def store (t : FileTree) (path : String) (node : Node) : Attempt FileError :=
  let made := t.makeDirectory (Path.parent path)
  match made.failure, made.files.write path node with
  | some e, _ => ⟨made.files, some e⟩
  | none, .error e => ⟨made.files, some e⟩
  | none, .ok files => ⟨files, none⟩

end FileTree

end ProbeCycle
