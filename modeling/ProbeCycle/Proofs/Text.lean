import Mathlib.Data.List.Basic
import ProbeCycle.Text

namespace ProbeCycle.Text

/-- A text is split at the one separator that none comes before. -/
theorem splitFirst?_eq_some {separator : Char} {cs before after : List Char} :
    splitFirst? separator cs = some (before, after) ↔
      cs = before ++ separator :: after ∧ separator ∉ before := by
  induction cs generalizing before with
  | nil => simp [splitFirst?]
  | cons c rest ih =>
    unfold splitFirst?
    by_cases hc : c = separator
    · rw [if_pos hc, hc]
      cases before with
      | nil => simp
      | cons b before =>
        simp only [Option.some.injEq, Prod.mk.injEq, reduceCtorEq, false_and, List.cons_append,
          List.cons.injEq, List.mem_cons, not_or, false_iff]
        intro h
        exact h.2.1 h.1.1
    · rw [if_neg hc]
      cases before with
      | nil => simp [hc]
      | cons b before =>
        have hb : (∃ p, splitFirst? separator rest = some p ∧
            (c :: p.1, p.2) = (b :: before, after)) ↔
              c = b ∧ splitFirst? separator rest = some (before, after) := by
          constructor
          · intro h
            obtain ⟨p, hp, he⟩ := h
            cases he
            exact ⟨rfl, hp⟩
          · intro h
            exact ⟨_, h.2, by rw [h.1]⟩
        rw [Option.map_eq_some_iff, hb, ih]
        simp only [List.cons_append, List.cons.injEq, List.mem_cons, not_or]
        constructor
        · intro h
          obtain ⟨rfl, hr, hn⟩ := h
          exact ⟨⟨rfl, hr⟩, fun e => hc e.symm, hn⟩
        · intro h
          obtain ⟨⟨hcb, hr⟩, _, hn⟩ := h
          exact ⟨hcb, hr, hn⟩

theorem splitFirst?_eq_none {separator : Char} {cs : List Char} :
    splitFirst? separator cs = none ↔ separator ∉ cs := by
  induction cs with
  | nil => simp [splitFirst?]
  | cons c rest ih =>
    unfold splitFirst?
    by_cases hc : c = separator
    · simp [hc]
    · simp [hc, ih, Ne.symm hc]

theorem splitAll_of_not_mem {separator : Char} {cs : List Char} (h : separator ∉ cs) :
    splitAll separator cs = [cs] := by
  induction cs with
  | nil => rfl
  | cons c rest ih =>
    obtain ⟨hc, hr⟩ := not_or.1 (List.mem_cons.not.1 h)
    rw [splitAll, if_neg (Ne.symm hc), ih hr]

theorem splitAll_ne_nil (separator : Char) (cs : List Char) : splitAll separator cs ≠ [] := by
  cases cs with
  | nil => exact List.cons_ne_nil _ _
  | cons c rest =>
    unfold splitAll
    split
    · exact List.cons_ne_nil _ _
    · split <;> exact List.cons_ne_nil _ _

/-- No part reaches over a separator. -/
theorem splitAll_append (separator : Char) (before after : List Char) :
    splitAll separator (before ++ separator :: after) =
      splitAll separator before ++ splitAll separator after := by
  induction before with
  | nil => simp [splitAll]
  | cons c rest ih =>
    rw [List.cons_append, splitAll, splitAll, ih]
    by_cases hc : c = separator
    · rw [if_pos hc, if_pos hc, List.cons_append]
    · rw [if_neg hc, if_neg hc]
      obtain ⟨part, parts, hparts⟩ := List.exists_cons_of_ne_nil (splitAll_ne_nil separator rest)
      rw [hparts]
      rfl

/-- Parts that do not hold the separator are found again in what it joins. -/
theorem splitAll_intercalate {separator : Char} {parts : List (List Char)} (hne : parts ≠ [])
    (h : ∀ part ∈ parts, separator ∉ part) :
    splitAll separator ([separator].intercalate parts) = parts := by
  induction parts with
  | nil => exact absurd rfl hne
  | cons part rest ih =>
    obtain ⟨hp, hr⟩ := List.forall_mem_cons.1 h
    cases rest with
    | nil => rw [List.intercalate_singleton, splitAll_of_not_mem hp]
    | cons next rest =>
      rw [List.intercalate_cons_cons, List.append_assoc, List.singleton_append, splitAll_append,
        splitAll_of_not_mem hp, ih (List.cons_ne_nil _ _) hr, List.singleton_append]

end ProbeCycle.Text
