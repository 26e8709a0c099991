import ProbeCycle.Proofs.Json.Range
import ProbeCycle.Proofs.Setting.Json

namespace ProbeCycle

open Json (Pads Layout)
open NumberLiteral (acceptedBelow refusedFrom)

namespace Setting.Value

variable {l : NumberLiteral} {cs : List Char} {text : String} {value : Value} {layout : Layout}

theorem foreign?_of_number {c : Char} {more : List Char} (hc : c.isDigit = true ∨ c = '-')
    (h : Json.skipBlanks cs = c :: more) : foreign? cs = none := by
  unfold foreign?
  rw [h]
  split
  case h_5 => rfl
  all_goals
    rename_i he
    obtain ⟨rfl, _⟩ := List.cons.inj he
    rcases hc with hc | hc <;> cases hc

/-- A text that is a number literal is what the literal stands for. -/
theorem read_spelled (h : l.Spells cs) (hpads : Pads cs text) :
    read text = l.value?.elim (.error .malformed) fun n => .ok (ofNumber n) := by
  have hforeign : foreign? text.toList = none := by
    obtain ⟨c, more, rfl, hc⟩ := Json.exists_cons_of_spells h
    obtain ⟨before, after, hbefore, _, htext⟩ := hpads
    have hskip : Json.skipBlanks text.toList = c :: (more ++ after) := by
      rw [htext, Json.skipBlanks_append hbefore]
      exact Json.skipBlanks_of_head (by simpa using Json.isBlank_of_number hc)
    exact foreign?_of_number hc hskip
  unfold read
  rw [hforeign, Json.read?_spelled h hpads, Option.bind_some, ofJson?]
  cases l.value? <;> rfl

/-- The decimal number that a text stands for, whether or not it could be the place of an option. -/
def number? (text : String) : Option Binary64 := (Json.read? text).bind Json.asBinary64?

theorem number?_spelled (h : l.Spells cs) (hpads : Pads cs text) :
    number? text = l.value?.map Number.toBinary64 := by
  rw [number?, Json.read?_spelled h hpads]
  rfl

theorem ofNumber_eq_choice {n : Number} {index : UInt64} :
    ofNumber n = choice index ↔ n = .natural index := by
  cases n <;> simp [ofNumber]

theorem ofNumber_eq_number {n : Number} {x : Binary64} :
    ofNumber n = number x ↔ (∀ index, n ≠ .natural index) ∧ n.toBinary64 = x := by
  cases n <;> simp [ofNumber]

/-- The digits of a plain literal that fits are the place of an option. -/
theorem read_eq_choice (h : l.Spells cs) (hpads : Pads cs text) {index : UInt64} :
    read text = .ok (choice index) ↔
      Text.isDigits cs = true ∧ Nat.ofDigitChars 10 cs 0 = index.toNat := by
  have hnatural : read text = .ok (choice index) ↔ l.value? = some (.natural index) := by
    rw [read_spelled h hpads]
    cases l.value? with
    | none => simp
    | some n => simp [ofNumber_eq_choice]
  rw [hnatural, NumberLiteral.value?_eq_natural h.wellFormed, h.isDigits_iff]
  apply and_congr_right
  intro hplain
  rw [h.eq_whole hplain]

theorem read_eq_number (h : l.Spells cs) (hpads : Pads cs text) {x : Binary64} :
    read text = .ok (number x) ↔
      ¬ (Text.isDigits cs = true ∧ Nat.ofDigitChars 10 cs 0 < UInt64.size) ∧
        number? text = some x := by
  have hfits : (Text.isDigits cs = true ∧ Nat.ofDigitChars 10 cs 0 < UInt64.size) ↔
      ∃ index, l.value? = some (.natural index) := by
    rw [h.isDigits_iff]
    constructor
    · rintro ⟨hplain, hlt⟩
      refine ⟨.ofNat (Nat.ofDigitChars 10 cs 0), ?_⟩
      rw [NumberLiteral.value?_eq_natural h.wellFormed, ← h.eq_whole hplain]
      exact ⟨hplain, (UInt64.toNat_ofNat'.trans (Nat.mod_eq_of_lt hlt)).symm⟩
    · rintro ⟨index, hvalue⟩
      obtain ⟨hplain, hdigits⟩ := (NumberLiteral.value?_eq_natural h.wellFormed).1 hvalue
      rw [h.eq_whole hplain, hdigits]
      exact ⟨hplain, index.toNat_lt⟩
  rw [hfits, read_spelled h hpads, number?_spelled h hpads]
  cases l.value? with
  | none => simp
  | some n => simp [ofNumber_eq_number]

theorem read_eq_error (h : l.Spells cs) (hpads : Pads cs text) {e : ReadError} :
    read text = .error e ↔ e = .malformed ∧ number? text = none := by
  rw [read_spelled h hpads, number?_spelled h hpads]
  cases l.value? with
  | none => simp [eq_comm]
  | some n => simp

theorem pads_toText (layout : Layout) (l : NumberLiteral) :
    Pads (Json.writeNumber l) ((Json.number l).toText layout) :=
  ⟨[], [], nofun, nofun, by simp [Json.toText, Json.write]⟩

theorem read_number (h : l.WellFormed) (layout : Layout) :
    read ((Json.number l).toText layout) =
      l.value?.elim (.error .malformed) fun n => .ok (ofNumber n) :=
  read_spelled (Json.spells_writeNumber h) (pads_toText layout l)

theorem read_boolean (flag : Bool) (layout : Layout) :
    read ((boolean flag).toJson.toText layout) = .ok (boolean flag) := by
  cases flag <;> cases layout <;> rfl

theorem read_choice (index : UInt64) (layout : Layout) :
    read ((choice index).toJson.toText layout) = .ok (choice index) := by
  refine (read_number (NumberLiteral.wellFormed_ofInt _) layout).trans ?_
  rw [NumberLiteral.value?_ofInt_natural index.toNat_lt, UInt64.ofNat_toNat]
  rfl

/-- What is read where a finite number was written is a decimal number, if not always the same. -/
theorem read_finite (negative : Bool) {units : Nat} (hu : Binary64.Representable units)
    (layout : Layout) : read ((number (.finite negative units hu)).toJson.toText layout) =
      (number? ((number (.finite negative units hu)).toJson.toText layout)).elim
        (.error .malformed) fun x => .ok (number x) := by
  obtain ⟨hwell, hdecimal⟩ := NumberLiteral.wellFormed_ofMagnitude negative units
  refine (read_number hwell layout).trans ?_
  have hread : number? ((number (.finite negative units hu)).toJson.toText layout) =
      (NumberLiteral.ofMagnitude negative units).value?.map Number.toBinary64 :=
    number?_spelled (Json.spells_writeNumber hwell) (pads_toText layout _)
  rw [hread]
  cases hvalue : (NumberLiteral.ofMagnitude negative units).value? with
  | none => rfl
  | some n =>
    obtain ⟨x, rfl⟩ := NumberLiteral.value?_of_isDecimal hdecimal hvalue
    rfl

theorem number?_of_survives {x : Binary64} (h : x.Survives) (layout : Layout) :
    number? ((number x).toJson.toText layout) = some x := by
  rw [number?, toJson, Json.read?_toText (Json.writable_ofBinary64 x)]
  exact Binary64.survives_iff.1 h

/-- JSON has no numbers that are not finite, and what stands for them is no value. -/
theorem read_of_not_finite {x : Binary64} (h : x.isFinite = false) (layout : Layout) :
    read ((number x).toJson.toText layout) = .error (.wrongType "null") := by
  have hnull : (number x).toJson = .null := by
    cases x with
    | finite negative units hu => cases h
    | _ => rfl
  rw [hnull]
  cases layout <;> rfl

theorem read_toJson (h : ∀ x ∈ value.numbers, x.Survives) (layout : Layout) :
    read (value.toJson.toText layout) = .ok value := by
  cases value with
  | boolean flag => exact read_boolean flag layout
  | choice index => exact read_choice index layout
  | number x =>
    have hx : x.Survives := h x (List.mem_singleton.2 rfl)
    cases x with
    | finite negative units hu => rw [read_finite, number?_of_survives hx, Option.elim_some]
    | _ => cases hx.isFinite

/-- Whatever a number is read as, the kind stays. -/
theorem kind_of_read_toJson {decoded : Value}
    (h : read (value.toJson.toText layout) = .ok decoded) : decoded.kind = value.kind := by
  cases value with
  | boolean flag =>
    rw [read_boolean] at h
    cases h
    rfl
  | choice index =>
    rw [read_choice] at h
    cases h
    rfl
  | number x =>
    cases x with
    | finite negative units hu =>
      rw [read_finite] at h
      cases hx : number? ((number (.finite negative units hu)).toJson.toText layout) with
      | none =>
        rw [hx] at h
        cases h
      | some x =>
        rw [hx] at h
        cases h
        rfl
    | _ =>
      rw [read_of_not_finite rfl] at h
      cases h

theorem read_eq_error_iff (h : l.Spells cs) (hpads : Pads cs text) :
    read text = .error .malformed ↔ l.value? = none := by
  rw [read_eq_error h hpads, number?_spelled h hpads, Option.map_eq_none_iff]
  exact and_iff_right rfl

theorem read_of_short (h : l.Spells cs) (hpads : Pads cs text) (hshort : l.HasShortExponent) :
    (l.numeral.Below acceptedBelow → ∃ value, read text = .ok value) ∧
      (¬ l.numeral.Below refusedFrom → read text = .error .malformed) := by
  obtain ⟨haccepted, hrefused⟩ := NumberLiteral.value?_of_short h.wellFormed hshort
  constructor
  · intro hbelow
    obtain ⟨n, hn⟩ := Option.ne_none_iff_exists'.1 (haccepted hbelow)
    exact ⟨ofNumber n, by rw [read_spelled h hpads, hn, Option.elim_some]⟩
  · exact fun hbeyond => (read_eq_error_iff h hpads).2 (hrefused hbeyond)

theorem read_of_long (h : l.Spells cs) (hpads : Pads cs text) (hlong : ¬ l.HasShortExponent) :
    read text = if 0 < l.tens ∧ l.numeral.digits ≠ 0 then .error .malformed
      else .ok (number (.zero l.negative)) := by
  rw [read_spelled h hpads, NumberLiteral.value?_of_long h.wellFormed hlong]
  split <;> rfl

/-- The kind of a value shows in its literal. A number literal stands for the place of an option if
it is digits that fit 64 bits, and else for the decimal number that JSON reads it as. It is refused
only if JSON reads no number: not below a bound a little under the greatest number, always from one
a little over it, and by its digits and its sign alone where the exponent is not short. A value
that is written comes back as the same, up to the last digits of a decimal number, and always with
its kind. -/
theorem read_keeps_kind :
    (∀ (l : NumberLiteral) (cs : List Char) (text : String), l.Spells cs → Pads cs text →
      (∀ index, read text = .ok (choice index) ↔
        Text.isDigits cs = true ∧ Nat.ofDigitChars 10 cs 0 = index.toNat) ∧
      (∀ x, read text = .ok (number x) ↔
        ¬ (Text.isDigits cs = true ∧ Nat.ofDigitChars 10 cs 0 < UInt64.size) ∧
          number? text = some x) ∧
      (∀ e, read text = .error e ↔ e = .malformed ∧ number? text = none) ∧
      (l.HasShortExponent →
        (l.numeral.Below acceptedBelow → ∃ value, read text = .ok value) ∧
        (¬ l.numeral.Below refusedFrom → read text = .error .malformed)) ∧
      (¬ l.HasShortExponent →
        read text = if 0 < l.tens ∧ l.numeral.digits ≠ 0 then .error .malformed
          else .ok (number (.zero l.negative)))) ∧
    (∀ (value : Value) (layout : Layout), (∀ x ∈ value.numbers, x.Survives) →
      read (value.toJson.toText layout) = .ok value) ∧
    ∀ (value decoded : Value) (layout : Layout),
      read (value.toJson.toText layout) = .ok decoded → decoded.kind = value.kind := by
  refine ⟨?_, fun _ layout h => read_toJson h layout, fun _ _ _ h => kind_of_read_toJson h⟩
  intro l cs text h hpads
  exact ⟨fun _ => read_eq_choice h hpads, fun _ => read_eq_number h hpads,
    fun _ => read_eq_error h hpads, read_of_short h hpads, read_of_long h hpads⟩

/-- On both sides of the last place of an option, at zero, beyond the numbers, with an exponent that
is not short, and for a number without a fraction. -/
theorem read_keeps_kind_limits :
    read "18446744073709551615" = .ok (choice 18446744073709551615) ∧
    read " 18446744073709551616 " = .ok (number 18446744073709551616) ∧
    read "-0" = .ok (number (-0)) ∧
    read "1.8e308" = .error .malformed ∧ read "-1e-2147483648" = .ok (number (-0)) ∧
    (number 5).toJson.toText .compact = "5.0" ∧ read "5.0" = .ok (number 5) := by
  have hlast : NumberLiteral.Spells ⟨false, "18446744073709551615".toList, [], none⟩
      "18446744073709551615".toList :=
    .plain (Text.isWhole_of_head? (by decide) (by decide))
  have hnext : NumberLiteral.Spells ⟨false, "18446744073709551616".toList, [], none⟩
      "18446744073709551616".toList :=
    .plain (Text.isWhole_of_head? (by decide) (by decide))
  have hzero : NumberLiteral.Spells ⟨true, ['0'], [], none⟩ "-0".toList :=
    .parts true ⟨rfl, fun _ => rfl⟩ nofun .none
  have hlarge : NumberLiteral.Spells ⟨false, ['1'], ['8'], some (false, "308".toList)⟩
      "1.8e308".toList :=
    .parts false (Text.isWhole_of_head? (by decide) (by decide))
      (List.all_eq_true.1 (by decide)) (.unsigned (Or.inl rfl) (by decide))
  have hsmall : NumberLiteral.Spells ⟨true, ['1'], [], some (true, "2147483648".toList)⟩
      "-1e-2147483648".toList :=
    .parts true (Text.isWhole_of_head? (by decide) (by decide)) nofun
      (.signed true (Or.inl rfl) (by decide))
  have hblank : ∀ c ∈ [' '], Json.isBlank c = true := List.forall_mem_singleton.2 rfl
  have hblanks : Pads "18446744073709551616".toList " 18446744073709551616 " :=
    ⟨[' '], [' '], hblank, hblank, rfl⟩
  have hfive : (number 5).toJson.toText .compact = "5.0" := by decide +kernel
  obtain ⟨hchoice, _⟩ :=
    read_keeps_kind.1 _ _ "18446744073709551615" hlast ⟨[], [], nofun, nofun, rfl⟩
  obtain ⟨_, hnumber, _⟩ := read_keeps_kind.1 _ _ " 18446744073709551616 " hnext hblanks
  obtain ⟨_, hminus, _⟩ := read_keeps_kind.1 _ _ "-0" hzero ⟨[], [], nofun, nofun, rfl⟩
  obtain ⟨_, _, _, hshort, _⟩ :=
    read_keeps_kind.1 _ _ "1.8e308" hlarge ⟨[], [], nofun, nofun, rfl⟩
  obtain ⟨_, _, _, _, hlong⟩ :=
    read_keeps_kind.1 _ _ "-1e-2147483648" hsmall ⟨[], [], nofun, nofun, rfl⟩
  have hexponent : NumberLiteral.HasShortExponent
      ⟨false, ['1'], ['8'], some (false, "308".toList)⟩ := by
    intro part hpart
    cases hpart
    decide
  have hexponent' : ¬ NumberLiteral.HasShortExponent
      ⟨true, ['1'], [], some (true, "2147483648".toList)⟩ :=
    fun h => absurd (h _ rfl) (by decide)
  refine ⟨(hchoice _).2 (by decide +kernel), (hnumber _).2 (by decide +kernel),
    (hminus _).2 (by decide +kernel), (hshort hexponent).2 (by decide +kernel), ?_, hfive, ?_⟩
  · exact (hlong hexponent').trans (by decide +kernel)
  · rw [← hfive]
    exact read_keeps_kind.2.1 (number 5) .compact (by decide +kernel)

/-- A number that is not beyond the greatest one can be refused all the same: the greatest one is,
when it is written in full or with two more zeros behind its digits. -/
theorem read_refuses_greatest :
    let greatest : Binary64 := 1.7976931348623157e308
    let full : NumberLiteral :=
      ⟨false, "17976931348623157".toList ++ List.replicate 292 '0', [], none⟩
    let padded : NumberLiteral :=
      ⟨false, ['1'], "797693134862315700".toList, some (false, "308".toList)⟩
    greatest.isFinite = true ∧ read "1.7976931348623157e308" = .ok (number greatest) ∧
    (full.Spells full.whole ∧ full.numeral.toBinary64 false = greatest ∧
      read (String.ofList full.whole) = .error .malformed) ∧
    (padded.Spells "1.797693134862315700e308".toList ∧
      padded.numeral.toBinary64 false = greatest ∧
      read "1.797693134862315700e308" = .error .malformed) := by
  intro greatest full padded
  have hfull : full.Spells full.whole :=
    .plain (Text.isWhole_of_head? (by decide +kernel) (by decide))
  have hpadded : padded.Spells "1.797693134862315700e308".toList :=
    .parts false (Text.isWhole_of_head? (by decide) (by decide))
      (List.all_eq_true.1 (by decide)) (.unsigned (Or.inl rfl) (by decide))
  have hrefused : read (String.ofList full.whole) = .error .malformed :=
    (read_eq_error_iff hfull ⟨[], [], nofun, nofun, by simp⟩).2 (by decide +kernel)
  exact ⟨by decide +kernel, by decide +kernel, ⟨hfull, by decide +kernel, hrefused⟩,
    hpadded, by decide +kernel, by decide +kernel⟩

end Setting.Value

end ProbeCycle
