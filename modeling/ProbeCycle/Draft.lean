import ProbeCycle.Catalog.Basic
import ProbeCycle.Setting.Input

namespace ProbeCycle

open Setting (Descriptor Value)

structure Draft.Entry where
  descriptor : Descriptor
  value : Value
  deriving DecidableEq

/-- Settings under their keys, in the order in which the keys first came, with the values they hold
so far. -/
structure Draft where
  operation : String
  entries : Table Draft.Entry
  deriving DecidableEq

namespace Draft

def empty (operation : String) : Draft := ⟨operation, ∅⟩

/-- Add a setting that holds its default, which is not checked. -/
def add (draft : Draft) (key : String) (descriptor : Descriptor) : Draft :=
  { draft with entries := draft.entries.insert key ⟨descriptor, descriptor.default⟩ }

def addWith (draft : Draft) (key : String) (descriptor : Descriptor) (value : Value) :
    Except ProbeError Draft := do
  let value ← descriptor.accept key value
  return { draft with entries := draft.entries.insert key ⟨descriptor, value⟩ }

/-- The draft in which every setting of an operation holds its default. -/
def ofOperation (op : Operation) : Draft :=
  op.settings.entries.foldl (fun draft (key, descriptor) => draft.add key descriptor)
    (empty op.key)

def entry (draft : Draft) (key : String) : Except ProbeError Entry :=
  match draft.entries.find? key with
  | some entry => .ok entry
  | none => .error (.unknownSetting draft.operation key)

/-- Give a setting of the draft another value. -/
def set (draft : Draft) (key : String) (value : Value) : Except ProbeError Draft := do
  let entry ← draft.entry key
  let value ← entry.descriptor.accept key value
  return { draft with entries := draft.entries.insert key { entry with value } }

/-- Give a setting of the draft the value that a text stands for. -/
def setText (draft : Draft) (key input : String) : Except ProbeError Draft := do
  let entry ← draft.entry key
  let value ← entry.descriptor.parse key input
  draft.set key value

end Draft

end ProbeCycle
