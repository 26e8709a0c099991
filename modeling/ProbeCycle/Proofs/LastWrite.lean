import ProbeCycle.Proofs.Overrides

namespace ProbeCycle

open Setting (Descriptor Value)

variable {op : Operation} {values later : List (String × Value)} {key line : String}
  {modifiers : Option Modifiers}

/-- The draft in which each setting of an operation holds what is given for it, or its default. -/
def Operation.filled (op : Operation) (given : String → Option Value) : Draft where
  operation := op.key
  entries.entries := op.settings.entries.map fun (key, d) => (key, ⟨d, (given key).getD d.default⟩)
  entries.nodup := by
    rw [List.map_map]
    exact op.settings.nodup

/-- The last value given for a setting. -/
def lastGiven (values : List (String × Value)) (key : String) : Option Value :=
  values.reverse.lookup key

theorem Operation.holding_eq_filled (hw : op.WellFormed) (ht : ∀ v ∈ values, op.Takes v.1 v.2) :
    op.holding values = op.filled (lastGiven values) := by
  have hover := over_holding hw ht
  have hentries : (op.holding values).entries = (op.filled (lastGiven values)).entries := by
    apply Table.ext
    rw [Draft.entries_eq, hover.schema]
    apply List.map_congr_left
    intro e he
    have hvalue : (op.holding values).snapshot.value? e.1 = _ :=
      value?_holding (Table.find?_eq_some.2 he)
    rw [Draft.value?_snapshot] at hvalue
    simp only [hvalue]
    rfl
  exact congrArg₂ Draft.mk hover.operation hentries

/-- A line is that of the operation with the last value given for each setting. -/
theorem compileOperation_eq_filled : compileOperation key values modifiers = .ok line ↔
    ∃ op, lookup key = .ok op ∧ (∀ v ∈ values, op.Takes v.1 v.2) ∧
      ∃ s, (op.filled (lastGiven values)).build = .ok s ∧
        line = compile op.code s modifiers := by
  rw [compileOperation_eq_ok]
  apply exists_congr
  intro op
  apply and_congr_right
  intro hop
  apply and_congr_right
  intro ht
  have hw := lookup_wellFormed hop
  rw [← Operation.holding_eq_filled hw ht, (Operation.over_holding hw ht).build hw]
  simp only [Except.ok.injEq, exists_eq_left']

/-- Values that are all given already do not change the line if the last ones are the same. -/
theorem compileOperation_congr (hsub : ∀ v ∈ later, v ∈ values)
    (hlast : lastGiven later = lastGiven values)
    (h : compileOperation key values modifiers = .ok line) :
    compileOperation key later modifiers = .ok line := by
  obtain ⟨op, hop, ht, hline⟩ := compileOperation_eq_filled.1 h
  refine compileOperation_eq_filled.2 ⟨op, hop, fun v hv => ht v (hsub v hv), ?_⟩
  rw [hlast]
  exact hline

/-- The same values in another order, in which those for any one setting keep theirs. -/
def Rearranged (values later : List (String × Value)) : Prop :=
  ∀ key, later.filter (·.1 == key) = values.filter (·.1 == key)

theorem Rearranged.mem (h : Rearranged values later) {v : String × Value} (hv : v ∈ later) :
    v ∈ values := by
  have hm : v ∈ later.filter (·.1 == v.1) := List.mem_filter.2 ⟨hv, beq_self_eq_true _⟩
  rw [h v.1] at hm
  exact (List.mem_filter.1 hm).1

theorem Rearranged.last (h : Rearranged values later) : lastGiven later = lastGiven values := by
  funext key
  rw [lastGiven, ← lookup_filter, List.filter_reverse, h key, ← List.filter_reverse, lookup_filter,
    lastGiven]

/-- A value does not count if there is a later one for its setting. -/
theorem lastGiven_shadowed {before after : List (String × Value)} {v : String × Value}
    (h : v.1 ∈ after.map Prod.fst) :
    lastGiven (before ++ v :: after) = lastGiven (before ++ after) := by
  funext key
  obtain ⟨k, value⟩ := v
  simp only [lastGiven, List.reverse_append, List.reverse_cons, List.lookup_append]
  cases hlast : after.reverse.lookup key with
  | some last => simp
  | none =>
    obtain ⟨w, hw, hkey⟩ := List.mem_map.1 h
    have hne := List.lookup_eq_none_iff.1 hlast w (List.mem_reverse.2 hw)
    have hb : (key == k) = false := by simpa [hkey] using hne
    simp [List.lookup_cons, hb]

/-- The values given for the settings of an operation are all taken, or the first that is not is
told of; and the line is that of the last ones, so that it does not change if they come in another
order or if values that later ones replace are left out. -/
theorem compileOperation_last_wins (key : String) (values : List (String × Value))
    (modifiers : Option Modifiers) :
    ((∃ line, compileOperation key values modifiers = .ok line) ↔
      ∃ op, lookup key = .ok op ∧ ∀ v ∈ values,
        ∃ d, op.settings.find? v.1 = some d ∧ v.2.kind = d.kind ∧ v.2.isFinite = true) ∧
    (∀ line, compileOperation key values modifiers = .ok line →
      (∃ op s, lookup key = .ok op ∧ (op.filled (lastGiven values)).build = .ok s ∧
        line = compile op.code s modifiers) ∧
      (∀ later, Rearranged values later → compileOperation key later modifiers = .ok line) ∧
      ∀ before v after, values = before ++ v :: after → v.1 ∈ after.map Prod.fst →
        compileOperation key (before ++ after) modifiers = .ok line) ∧
    (∀ e, compileOperation key values modifiers = .error e ↔
      (∀ op, lookup key ≠ .ok op) ∧ e = .unknownOperation key ∨
      ∃ op, lookup key = .ok op ∧ ∃ before v after, values = before ++ v :: after ∧
        (∀ b ∈ before, op.Takes b.1 b.2) ∧ op.Refuses v.1 v.2 e) ∧
    ∀ setting controller,
      compileOperation key values modifiers ≠ .error (.unresolvedCondition setting controller) := by
  refine ⟨?_, ?_, fun e => compileOperation_eq_error, ?_⟩
  · simp only [compileOperation_eq_ok, Operation.Takes, Descriptor.Accepts]
    constructor
    · rintro ⟨_, op, hop, ht, _⟩
      exact ⟨op, hop, ht⟩
    · rintro ⟨op, hop, ht⟩
      exact ⟨_, op, hop, ht, rfl⟩
  · intro line h
    refine ⟨?_, ?_, ?_⟩
    · obtain ⟨op, hop, _, s, hbuild, hline⟩ := compileOperation_eq_filled.1 h
      exact ⟨op, s, hop, hbuild, hline⟩
    · intro later hlater
      exact compileOperation_congr (fun _ => hlater.mem) hlater.last h
    · intro before v after hsplit hshadowed
      subst hsplit
      refine compileOperation_congr ?_ (lastGiven_shadowed hshadowed).symm h
      intro w hw
      rcases List.mem_append.1 hw with hb | ha
      · exact List.mem_append_left _ hb
      · exact List.mem_append_right _ (List.mem_cons_of_mem _ ha)
  · intro setting controller h
    rcases compileOperation_eq_error.1 h with ⟨_, he⟩ | ⟨op, _, _, v, _, _, _, hr⟩
    · cases he
    · exact hr.ne_unresolvedCondition setting controller rfl

/-- A diameter between two depths, the first of which does not count; a depth that is no number
comes before a setting that is none. -/
theorem compileOperation_last_wins_bore :
    compileOperation "bore" [("depth", .number 3), ("diameter", .number 12), ("depth", .number 4)]
      none = .ok "G6500.1 H12 Z4 O2" ∧
    compileOperation "bore" [("diameter", .number 12), ("depth", .number 3), ("depth", .number 4)]
      none = .ok "G6500.1 H12 Z4 O2" ∧
    compileOperation "bore" [("diameter", .number 12), ("depth", .number 4)] none =
      .ok "G6500.1 H12 Z4 O2" ∧
    compileOperation "bore"
      [("depth", .number 3), ("depth", .number .nan), ("quick", .boolean true)] none =
        .error (.invalidValue "depth" "NaN") := by
  have hline : compileOperation "bore"
      [("depth", .number 3), ("diameter", .number 12), ("depth", .number 4)] none =
        .ok "G6500.1 H12 Z4 O2" := by decide +kernel
  obtain ⟨_, hrearranged, hshadowed⟩ :=
    (compileOperation_last_wins "bore" _ none).2.1 _ hline
  refine ⟨hline, hrearranged _ ?_, hshadowed [] _ _ rfl (by decide), ?_⟩
  · intro key
    by_cases hdepth : "depth" = key
    · subst hdepth
      simp
    · simp [List.filter_cons, hdepth]
  · have hop : lookup "bore" = .ok Catalog.bore := by decide +kernel
    have htakes : Catalog.bore.Takes "depth" (.number 3) :=
      ⟨Catalog.depth, by decide +kernel, by decide +kernel⟩
    have hrefuses : Catalog.bore.Refuses "depth" (.number .nan) (.invalidValue "depth" "NaN") :=
      Setting.Descriptor.Refuses.notFinite (by decide) (by decide)
    exact ((compileOperation_last_wins "bore" _ none).2.2.1 _).2 (Or.inr ⟨_, hop,
      [("depth", .number 3)], _, _, rfl, List.forall_mem_singleton.2 htakes, hrefuses⟩)

end ProbeCycle
