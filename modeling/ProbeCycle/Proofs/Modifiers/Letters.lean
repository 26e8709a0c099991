import Mathlib
import ProbeCycle.Json.Reader
import ProbeCycle.Modifiers.Json
import ProbeCycle.Proofs.Modifiers
import ProbeCycle.Proofs.Steps

namespace ProbeCycle.Modifiers

variable {m : Modifiers} {letter c : Char} {offset : Binary64}

/-- No two letters are the same but for their case, and each offset is found under its letter in
either case. -/
structure Caseless (m : Modifiers) : Prop where
  distinct : ∀ e ∈ m.entries, ∀ e' ∈ m.entries, e.1.toUpper = e'.1.toUpper → e = e'
  found : ∀ e ∈ m.entries, m.get? e.1 = some e.2 ∧ m.get? e.1.toLower = some e.2 ∧
    m.get? e.1.toUpper = some e.2

/-- Every letter is its own upper case; what is no ASCII letter always is. -/
def Upper (m : Modifiers) : Prop :=
  ∀ c ∈ m.letters, c.toUpper = c

theorem get?_toUpper (m : Modifiers) (c : Char) : m.get? c.toUpper = m.get? c := by
  rw [get?, get?, Char.toUpper_toUpper_eq_toUpper]

theorem get?_toLower (m : Modifiers) (c : Char) : m.get? c.toLower = m.get? c := by
  rw [get?, get?, Char.toUpper_toLower_eq_toUpper]

theorem caseless_iff_upper : m.Caseless ↔ m.Upper := by
  constructor
  · intro h c hc
    obtain ⟨e, he, rfl⟩ := List.mem_map.1 hc
    have hupper : (e.1.toUpper, e.2) ∈ m.entries := lookup_eq_some.1 (h.found e he).1
    have hsame := h.distinct e he _ hupper (Char.toUpper_toUpper_eq_toUpper e.1).symm
    exact (congrArg Prod.fst hsame).symm
  · intro h
    have hletter : ∀ e ∈ m.entries, e.1.toUpper = e.1 :=
      fun e he => h e.1 (List.mem_map_of_mem he)
    refine ⟨?_, ?_⟩
    · intro e he e' he' hsame
      rw [hletter e he, hletter e' he'] at hsame
      have hoffset := (lookup_eq_some.2 he).symm.trans (hsame ▸ lookup_eq_some.2 he')
      exact Prod.ext hsame (Option.some.inj hoffset)
    · intro e he
      have hfound : m.get? e.1 = some e.2 := by
        rw [get?, hletter e he]
        exact lookup_eq_some.2 he
      exact ⟨hfound, (get?_toLower m e.1).trans hfound, (get?_toUpper m e.1).trans hfound⟩

theorem mem_letters_insert (m : Modifiers) (letter c : Char) (offset : Binary64) :
    c ∈ (m.insert letter offset).letters ↔ c = letter.toUpper ∨ c ∈ m.letters := by
  rw [mem_letters, insert, lookup_put, mem_letters]
  by_cases h : c = letter.toUpper <;> simp [h]

/-- Storing an offset neither adds a lower case letter nor takes one away. -/
theorem upper_insert : (m.insert letter offset).Upper ↔ m.Upper := by
  unfold Upper
  simp only [mem_letters_insert, or_imp, forall_and, forall_eq, Char.toUpper_toUpper_eq_toUpper,
    true_and]

theorem upper_insertAll (entries : List (Char × Binary64)) :
    (m.insertAll entries).Upper ↔ m.Upper := by
  induction entries generalizing m with
  | nil => exact Iff.rfl
  | cons entry rest ih => exact ih.trans upper_insert

theorem upper_ofList (entries : List (Char × Binary64)) : (ofList entries).Upper :=
  (upper_insertAll (m := ∅) entries).2 fun _ hc => absurd hc List.not_mem_nil

/-- What modifiers are made from. -/
inductive Source where
  | typed (input : String)
  | listed (entries : List (Char × Binary64))
  | json (text : String)

def Source.read? : Source → Option Modifiers
  | .typed input => (parse input).toOption
  | .listed entries => some (ofList entries)
  | .json text => (Json.read? text).bind ofJson?

theorem upper_parse {input : String} (h : parse input = .ok m) : m.Upper := by
  obtain ⟨entries, _, h⟩ := Steps.bind_eq_ok.1 h
  cases h
  exact upper_ofList entries

/-- Whatever modifiers are made from and whatever is stored later, the case of a letter makes no
difference in them unless they were read with a lower case letter, which is possible in JSON
only. -/
theorem caseless_insertAll_iff (source : Source) (h : source.read? = some m)
    (inserted : List (Char × Binary64)) :
    ((m.insertAll inserted).Caseless ↔ ∀ c ∈ m.letters, c.toUpper = c) ∧
    ((∀ text, source ≠ .json text) → (m.insertAll inserted).Caseless) ∧
    ∀ c, (m.insertAll inserted).get? c.toLower = (m.insertAll inserted).get? c ∧
      (m.insertAll inserted).get? c.toUpper = (m.insertAll inserted).get? c := by
  have hiff : (m.insertAll inserted).Caseless ↔ m.Upper :=
    caseless_iff_upper.trans (upper_insertAll inserted)
  refine ⟨hiff, ?_, fun c => ⟨get?_toLower _ c, get?_toUpper _ c⟩⟩
  intro hsource
  apply hiff.2
  cases source with
  | typed input =>
    cases hparse : parse input with
    | error e => simp [Source.read?, hparse, Except.toOption] at h
    | ok read =>
      obtain rfl : read = m := by simpa [Source.read?, hparse, Except.toOption] using h
      exact upper_parse hparse
  | listed entries =>
    obtain rfl : ofList entries = m := Option.some.inj h
    exact upper_ofList entries
  | json text => exact absurd rfl (hsource text)

theorem caseless_insertAll_iff_typed :
    (Source.typed "Z=-30, x=1.5").read? = some (ofList [('z', -30), ('X', 1.5)]) ∧
    ((ofList [('z', -30), ('X', 1.5)]).insertAll [('c', 2), ('x', 4)]).Caseless := by
  have hread : (Source.typed "Z=-30, x=1.5").read? = some (ofList [('z', -30), ('X', 1.5)]) := by
    decide +kernel
  exact ⟨hread, (caseless_insertAll_iff _ hread _).2.1 fun _ => nofun⟩

/-- An offset under a lower case letter, read from JSON, is found under neither case of it. -/
theorem get?_lowerCase_json :
    ∃ m, (Source.json "\x7b\"modifiers\":\x7b\"z\":\x7b\"Offset\":1.0\x7d\x7d\x7d").read? = some m ∧
      m.entries = [('z', 1)] ∧ m.get? 'z' = none ∧ m.get? 'Z' = none ∧ ¬ m.Caseless := by
  refine ⟨(∅ : Modifiers).put 'z' 1, by decide +kernel, rfl, by decide, by decide, ?_⟩
  intro h
  exact absurd (caseless_iff_upper.1 h 'z' List.mem_cons_self) (by decide)

end ProbeCycle.Modifiers
