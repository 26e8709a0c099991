import ProbeCycle.Binary64.Basic

namespace ProbeCycle

/-- Keys stand in document order. A date or time is a value of which nothing is kept. -/
inductive Toml where
  | string (text : String)
  | integer (n : Int64)
  | decimal (x : Binary64)
  | bool (flag : Bool)
  | moment
  | array (items : List Toml)
  | table (entries : List (String × Toml))

namespace Toml

/-- How a table came to be: by a header of its own, on the way to a longer header, or by a
dotted key. -/
inductive Origin where
  | header
  | passage
  | dotted
  deriving DecidableEq

/-- A table under construction, an array of such tables, or a finished value. -/
inductive Node where
  | value (v : Toml)
  | table (origin : Origin) (entries : List (String × Node))
  | tables (elements : List (List (String × Node)))

abbrev Entries := List (String × Node)

/-- Change what stands under a key, or put it at the end where nothing does. -/
def alter (key : String) (change : Option Node → Option Node) : Entries → Option Entries
  | [] => (change none).map fun node => [(key, node)]
  | (k, node) :: rest =>
    if k = key then (change (some node)).map fun node => (key, node) :: rest
    else (alter key change rest).map ((k, node) :: ·)

/-- Change the table at the end of a path, making the tables on the way that are missing. A path
of dotted keys does not lead into a table with a header of its own, and no path leads into a
value. In an array of tables the last one counts. -/
def changeAt (dotted : Bool) (change : Origin → Entries → Option Entries) :
    List String → Origin → Entries → Option Entries
  | [], origin, entries => change origin entries
  | key :: path, _, entries =>
    let fresh : Origin := if dotted then .dotted else .passage
    alter key (fun
      | none => (changeAt dotted change path fresh []).map (.table fresh)
      | some (.value _) => none
      | some (.table origin inner) =>
        if dotted ∧ origin = .header then none
        else (changeAt dotted change path origin inner).map (.table origin)
      | some (.tables elements) =>
        match elements.getLast? with
        | none => none
        | some last =>
          (changeAt dotted change path .header last).map fun last =>
            .tables (elements.dropLast ++ [last])) entries

/-- Give a new key its value. The table that a dotted key leads to must have come from dotted
keys itself. -/
def assign (path : List String) (key : String) (v : Toml) (entries : Entries) : Option Entries :=
  changeAt true (fun origin entries =>
    if path ≠ [] ∧ origin ≠ .dotted then none
    else alter key (fun
      | none => some (.value v)
      | some _ => none) entries) path .header entries

/-- What stands at the end of a path of headers. -/
def nodeAt? : List String → Entries → Option Node
  | [], _ => none
  | [key], entries => entries.lookup key
  | key :: path, entries =>
    match entries.lookup key with
    | some (.table _ inner) => nodeAt? path inner
    | some (.tables elements) => elements.getLast?.bind (nodeAt? path)
    | _ => none

/-- A document being read: all that is finished, and the table whose lines come next. -/
structure Document where
  root : Entries
  path : List String
  isElement : Bool
  current : Entries

namespace Document

def start : Document := ⟨[], [], false, []⟩

def assign (d : Document) (path : List String) (key : String) (v : Toml) : Option Document :=
  (Toml.assign path key v d.current).map fun current => { d with current }

/-- All tables, the current one in its place. -/
def close (d : Document) : Option Entries :=
  match d.path.getLast? with
  | none => some d.current
  | some key =>
    changeAt false (fun _ entries => alter key (fun
      | none => some (if d.isElement then .tables [d.current] else .table .header d.current)
      | some (.tables elements) =>
        if d.isElement then some (.tables (elements ++ [d.current])) else none
      | some _ => none) entries) d.path.dropLast .header d.root

/-- Go on with the table of a header. A table on the way to an earlier header may still have one
of its own; it moves to the end. -/
def openTable (d : Document) (path : List String) (key : String) : Option Document := do
  let root ← d.close
  let current ← match nodeAt? (path ++ [key]) root with
    | none => some []
    | some (.table .passage entries) => some entries
    | some _ => none
  let root ← changeAt false (fun _ entries => some (entries.filter (·.1 ≠ key))) path .header root
  return ⟨root, path ++ [key], false, current⟩

/-- Go on with a new element of an array of tables. -/
def openElement (d : Document) (path : List String) (key : String) : Option Document := do
  let root ← d.close
  let root ← changeAt false (fun _ entries => alter key (fun
    | none => some (.tables [])
    | some (.tables elements) => some (.tables elements)
    | some _ => none) entries) path .header root
  return ⟨root, path ++ [key], true, []⟩

end Document

mutual

def Node.finish : Node → Toml
  | .value v => v
  | .table _ entries => .table (finishEntries entries)
  | .tables elements => .array (finishElements elements)

def finishEntries : Entries → List (String × Toml)
  | [] => []
  | (key, node) :: rest => (key, node.finish) :: finishEntries rest

def finishElements : List Entries → List Toml
  | [] => []
  | entries :: rest => .table (finishEntries entries) :: finishElements rest

end

end Toml

end ProbeCycle
