import ProbeCycle.Catalog.Standard
import ProbeCycle.Event
import ProbeCycle.Modifiers
import ProbeCycle.Snapshot

namespace ProbeCycle

open Setting (Descriptor Value)

namespace Line

/-- What has been written so far, and the letters whose offset has been used. -/
structure Progress where
  words : List String
  events : List Event
  used : List Char

/-- The offset for a letter, until it has been used. -/
def offset? (modifiers : Option Modifiers) (used : List Char) (letter : Char) :
    Option Binary64 :=
  if letter ∈ used then none else modifiers.bind (·.get? letter)

/-- An offset goes to the first number with its letter and no other; the multiplier of a setting
takes part only where an offset is added. -/
def write (s : Snapshot) (modifiers : Option Modifiers) (p : Progress) (item : Snapshot.Item) :
    Progress :=
  match item.descriptor.parameter with
  | none => p
  | some letter =>
    if !s.includes item then
      { p with events := p.events ++ [.omitted item.key s.operation] }
    else match item.value with
      | .boolean flag =>
        { p with words := p.words ++ [Word.word letter (if flag then "1" else "0")] }
      | .choice index =>
        { p with words := p.words ++ [Word.word letter (toString index.toNat)] }
      | .number x =>
        match offset? modifiers p.used letter with
        | none => { p with words := p.words ++ [Word.word letter (Word.number x)] }
        | some offset =>
          let adjusted := (x.multiply item.descriptor.multiplier).add offset
          { words := p.words ++ [Word.word letter (Word.number adjusted)]
            events := p.events ++ [.adjusted letter offset item.key x adjusted]
            used := p.used ++ [letter] }

/-- The words of the settings in order. -/
def progress (s : Snapshot) (modifiers : Option Modifiers) : Progress :=
  s.items.foldl (write s modifiers) ⟨[], [], []⟩

/-- Offsets that no word has used, in the order of their letters. -/
def unmatched (s : Snapshot) (modifiers : Option Modifiers) (used : List Char) : List Event :=
  match modifiers with
  | none => []
  | some m => (m.letters.filter (· ∉ used)).map (.unmatched · s.operation)

end Line

/-- The line for a snapshot: the word that selects the cycle, and a word for each setting that
appears and has a letter. -/
def compile (code : Binary64) (s : Snapshot) (modifiers : Option Modifiers) : String :=
  " ".intercalate (Word.code code :: (Line.progress s modifiers).words)

/-- What is reported while the line is written. -/
def compileEvents (s : Snapshot) (modifiers : Option Modifiers) : List Event :=
  let p := Line.progress s modifiers
  p.events ++ Line.unmatched s modifiers p.used

/-- The snapshot of a standard operation with some values in place of its defaults. -/
def overriddenSnapshot (op : Operation) (overrides : List (String × Value)) :
    Except ProbeError Snapshot := do
  let draft ← overrides.foldlM (fun draft (key, value) => draft.set key value)
    (Draft.ofOperation op)
  draft.build

/-- The line of a standard operation with some values in place of its defaults. -/
def compileOperation (key : String) (overrides : List (String × Value))
    (modifiers : Option Modifiers) : Except ProbeError String := do
  let op ← lookup key
  let s ← overriddenSnapshot op overrides
  return compile op.code s modifiers

end ProbeCycle
