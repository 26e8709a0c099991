import ProbeCycle.Catalog.Basic
import ProbeCycle.Setting.Json

namespace ProbeCycle

def Table.toJson {α : Type} (encode : α → Json) (t : Table α) : Json :=
  .object (t.entries.map fun (key, x) => (.ofString key, encode x))

def Operation.toJson (op : Operation) : Json :=
  .object [
    (.ofString "key", .ofString op.key),
    (.ofString "name", .ofString op.name),
    (.ofString "icon", .ofString op.icon),
    (.ofString "description", .ofString op.description),
    (.ofString "code", .ofBinary64 op.code),
    (.ofString "settings", op.settings.toJson Setting.Descriptor.toJson)]

def Catalog.toJson (c : Catalog) : Json :=
  .object [(.ofString "operations", c.operations.toJson Operation.toJson)]

end ProbeCycle
