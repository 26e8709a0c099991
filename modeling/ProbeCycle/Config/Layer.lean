import ProbeCycle.Config.Basic
import ProbeCycle.Draft
import ProbeCycle.Event

namespace ProbeCycle

open Setting (Value)

/-- How far the stored values went into a draft, and what stopped them if something did. -/
structure Config.Layering where
  draft : Draft
  events : List Event
  failure : Option ConfigError
  deriving DecidableEq

namespace Config

/-- One stored value, checked first against the standard operation and then by the draft. -/
def layerOne (op : Operation) (draft : Draft) (key : String) (stored : StoredValue) :
    Except ProbeError (Draft × Value) := do
  let value ← resolve op key stored
  return (← draft.set key value, value)

/-- The values go in one by one: those before one that does not fit stay in the draft. -/
def layerAll (op : Operation) (draft : Draft) : List (String × StoredValue) → Layering
  | [] => ⟨draft, [], none⟩
  | (key, stored) :: rest =>
    match layerOne op draft key stored with
    | .error e => ⟨draft, [], some (.probe e)⟩
    | .ok (draft, value) =>
      let layering := layerAll op draft rest
      { layering with events := .storedDefault op.key key value :: layering.events }

/-- Lay the values stored for the operation of a draft over it. -/
def applyDefaults (c : Config) (draft : Draft) : Layering :=
  match c.defaults.find? draft.operation with
  | none => ⟨draft, [], none⟩
  | some values =>
    match lookup draft.operation with
    | .error e => ⟨draft, [], some (.probe e)⟩
    | .ok op => layerAll op draft values.entries

end Config

end ProbeCycle
