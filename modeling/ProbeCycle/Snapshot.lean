import ProbeCycle.Draft

namespace ProbeCycle

open Setting (Descriptor Value)

structure Snapshot.Item where
  key : String
  descriptor : Descriptor
  value : Value
  controller : Option Nat
  deriving DecidableEq

/-- The finished settings of one operation, each condition resolved to the place of the setting that
it depends on. -/
structure Snapshot where
  operation : String
  items : List Snapshot.Item
  deriving DecidableEq

namespace Snapshot

def find? (s : Snapshot) (key : String) : Option Item :=
  s.items.find? (·.key == key)

def value? (s : Snapshot) (key : String) : Option Value :=
  (s.find? key).map Item.value

/-- Whether the condition of a setting holds; a setting without one always appears. -/
def includes (s : Snapshot) (item : Item) : Bool :=
  match item.controller, item.descriptor.condition with
  | some place, some condition =>
    match s.items[place]? with
    | some controller => controller.value.equal condition.value
    | none => false
  | _, _ => true

/-- The settings that appear must lie within their limits; hidden ones are not looked at. -/
def checkBounds (s : Snapshot) : Except ProbeError Unit :=
  (s.items.filter s.includes).forM fun item => item.descriptor.checkBounds item.key item.value

end Snapshot

namespace Draft

/-- A setting of the draft, its condition resolved. -/
def resolve (draft : Draft) (key : String) (entry : Entry) : Except ProbeError Snapshot.Item :=
  match entry.descriptor.condition with
  | none => .ok ⟨key, entry.descriptor, entry.value, none⟩
  | some condition =>
    match draft.entries.place? condition.setting with
    | some place => .ok ⟨key, entry.descriptor, entry.value, some place⟩
    | none => .error (.unresolvedCondition key condition.setting)

/-- The snapshot of a draft, unless some condition depends on a setting that is missing. -/
def build (draft : Draft) : Except ProbeError Snapshot := do
  let items ← draft.entries.entries.mapM fun (key, entry) => draft.resolve key entry
  return ⟨draft.operation, items⟩

end Draft

/-- The snapshot in which every setting of an operation holds its default. -/
def Snapshot.defaults (op : Operation) : Except ProbeError Snapshot :=
  (Draft.ofOperation op).build

end ProbeCycle
