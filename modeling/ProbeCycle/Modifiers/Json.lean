import ProbeCycle.Json.Record
import ProbeCycle.Json.Writer
import ProbeCycle.Modifiers

namespace ProbeCycle.Modifiers

def offsetToJson (offset : Binary64) : Json :=
  .object [(.ofString "Offset", .ofBinary64 offset)]

def offsetOfJson? : Json → Option Binary64
  | .object [(name, offset)] =>
    if name.string? = some "Offset" then offset.asBinary64? else none
  | _ => none

def toJson (m : Modifiers) : Json :=
  .object [(.ofString "modifiers", .object (m.entries.map fun (letter, offset) =>
    (.ofString (String.singleton letter), offsetToJson offset)))]

/-- Letters are kept as they are written, in upper case or not; of entries for one letter the last
one stays. -/
def entriesOfJson? : Json → Option Modifiers
  | .object members =>
    members.foldlM (fun m (name, offset) => do
      let [letter] ← name.chars? | none
      return m.put letter (← offsetOfJson? offset)) ∅
  | _ => none

def ofJson? : Json → Option Modifiers
  | .object members => do
    Json.required? (← Json.named? members) "modifiers" entriesOfJson?
  | .array [entries] => entriesOfJson? entries
  | _ => none

end ProbeCycle.Modifiers
