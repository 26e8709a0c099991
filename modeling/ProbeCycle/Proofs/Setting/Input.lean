import ProbeCycle.Proofs.ReadBack
import ProbeCycle.Proofs.Setting

namespace ProbeCycle

theorem Text.index?_toString (index : UInt64) :
    index? (toString index.toNat).toList = some index := by
  have hdigits := isDigits_toDigits index.toNat
  obtain ⟨hne, hall⟩ := isDigits_iff.1 hdigits
  obtain ⟨c, cs, hcs⟩ := List.exists_cons_of_ne_nil hne
  have hc : c ≠ '+' := by
    rintro rfl
    have hplus := hall '+' (by simp [hcs])
    cases hplus
  rw [Nat.toString_eq_ofList_toDigits, String.toList_ofList, hcs, index?_of_ne hc, ← hcs, natural?,
    if_pos hdigits, Option.bind_some, Nat.ofDigitChars_ten_toDigits, if_pos index.toNat_lt_size,
    UInt64.ofNat_toNat]

namespace Setting

variable {d : Descriptor} {spec : Spec} {value : Value} {options : List Choice}
  {key input : String} {cs : List Char}

theorem Value.trim_text (h : value.isFinite = true) :
    Text.trim value.text.toList = value.text.toList := by
  cases value with
  | boolean flag => cases flag <;> decide
  | number x => exact Text.trim_plain (Word.plain_number h)
  | choice index => exact Text.trim_plain (Text.plain_nat index.toNat)

theorem Spec.read?_text (hk : value.kind = spec.kind) (hf : value.isFinite = true) :
    ∃ back, spec.read? value.text.toList = some back ∧ back.equal value = true ∧
      back.kind = spec.kind ∧ back.isFinite = true := by
  cases value with
  | boolean flag =>
    cases spec with
    | boolean default =>
      have hflag : flag? (Value.boolean flag).text.toList = some flag := by
        cases flag <;> decide
      exact ⟨.boolean flag, by rw [read?, hflag]; rfl, by simp [Value.equal], rfl, rfl⟩
    | _ => cases hk
  | number x =>
    cases spec with
    | number default lower upper step =>
      obtain ⟨y, hread, hequal, hy⟩ := Binary64.read?_number hf
      exact ⟨.number y, by rw [read?, Value.text, hread]; rfl, hequal, rfl, hy⟩
    | _ => cases hk
  | choice index =>
    cases spec with
    | choice default options =>
      have hoption : option? options (Value.choice index).text.toList = some index := by
        rw [option?, Value.text, Text.index?_toString]
      exact ⟨.choice index, by rw [read?, hoption]; rfl, by simp [Value.equal], rfl, rfl⟩
    | _ => cases hk

theorem Descriptor.parse_eq_ok : d.parse key input = .ok value ↔
    d.spec.read? (Text.trim input.toList) = some value ∧ d.Accepts value := by
  unfold parse
  cases d.spec.read? (Text.trim input.toList) with
  | none => simp
  | some read =>
    simp only [accept_eq_ok, Option.some.injEq]
    constructor
    · rintro ⟨ha, rfl⟩
      exact ⟨rfl, ha⟩
    · rintro ⟨rfl, ha⟩
      exact ⟨ha, rfl⟩

/-- What is shown of a value that a setting can hold can be typed for it, and what can be typed
for a setting is a value that it can hold. -/
theorem Descriptor.parse_shown (d : Descriptor) (key : String) :
    (∀ value stored, d.accept key value = .ok stored →
      ∀ before after : String, Text.Blank before.toList → Text.Blank after.toList →
        ∃ back, d.parse key (before ++ value.text ++ after) = .ok back ∧
          back.equal value = true) ∧
    ∀ input value, d.parse key input = .ok value → d.accept key value = .ok value := by
  constructor
  · intro value stored haccept before after hbefore hafter
    obtain ⟨⟨hk, hf⟩, _⟩ := accept_eq_ok.1 haccept
    obtain ⟨back, hread, hequal, hkind, hfinite⟩ := Spec.read?_text hk hf
    refine ⟨back, parse_eq_ok.2 ⟨?_, hkind, hfinite⟩, hequal⟩
    rw [String.toList_append, String.toList_append, Text.trim_append hbefore hafter,
      Value.trim_text hf, hread]
  · intro input value hparse
    exact accept_eq_ok.2 ⟨(parse_eq_ok.1 hparse).2, rfl⟩

theorem Descriptor.parse_shown_zero : ∃ back,
    (Descriptor.number "Offset" "" 1).parse "offset" ("\t" ++ "0" ++ "\u2003") = .ok back ∧
      back.equal (.number (-0)) = true := by
  have hzero : (Value.number (-0)).text = "0" := by decide +kernel
  have hback := (parse_shown (Descriptor.number "Offset" "" 1) "offset").1 (.number (-0))
    (.number (-0)) (by decide +kernel) "\t" "\u2003" (by decide) (by decide)
  rwa [hzero] at hback

/-- No two labels are the same but for the case of their letters. -/
def Unlike (options : List Choice) : Prop :=
  options.Pairwise fun o o' => Text.sameLetters o.label.toList o'.label.toList = false

instance (options : List Choice) : Decidable (Unlike options) :=
  inferInstanceAs (Decidable (List.Pairwise _ _))

/-- The first label that fits is the only one. -/
theorem findIdx?_label (h : Unlike options) {place : Nat} {o : Choice}
    (ho : options[place]? = some o) (hcs : cs.map Char.toLower = o.label.toList.map Char.toLower) :
    options.findIdx? (fun o => Text.sameLetters o.label.toList cs) = some place := by
  obtain ⟨hlt, rfl⟩ := List.getElem?_eq_some_iff.1 ho
  refine List.findIdx?_eq_some_iff_getElem.2 ⟨hlt, Text.sameLetters_iff.2 hcs.symm, ?_⟩
  intro earlier hearlier hsame
  have hunlike := List.pairwise_iff_getElem.1 h earlier place (by omega) hlt hearlier
  rw [Text.sameLetters_iff.2 ((Text.sameLetters_iff.1 hsame).trans hcs)] at hunlike
  cases hunlike

theorem option?_of_index {index : UInt64} (h : Text.index? cs = some index) :
    option? options cs = some index := by
  rw [option?, h]

theorem option?_of_label (h : Unlike options) {index : UInt64} {o : Choice}
    (ho : options[index.toNat]? = some o) (hindex : Text.index? cs = none)
    (hcs : cs.map Char.toLower = o.label.toList.map Char.toLower) :
    option? options cs = some index := by
  rw [option?, hindex]
  dsimp only
  rw [findIdx?_label h ho hcs, Option.map_some, UInt64.ofNat_toNat]

theorem Descriptor.parse_choice {default index : UInt64} (hspec : d.spec = .choice default options)
    (hoption : option? options (Text.trim input.toList) = some index) :
    d.parse key input = .ok (.choice index) := by
  refine parse_eq_ok.2 ⟨?_, ?_, rfl⟩
  · rw [hspec, Spec.read?, hoption]
    rfl
  · rw [kind, hspec]
    rfl

/-- A label, in any case, chooses its option. An index goes before a label, so one that reads as
an index chooses that. -/
theorem Descriptor.parse_label (d : Descriptor) (hunlike : Unlike d.options) (key : String)
    (index : UInt64) (hindex : index.toNat < d.options.length) :
    ∃ label, d.optionLabel? (.choice index) = some label ∧
      ∀ typed : String, Text.sameLetters typed.toList label.toList = true →
        (∀ n, Text.index? (Text.trim label.toList) = some n →
          d.parse key typed = .ok (.choice n)) ∧
        (Text.trim label.toList = label.toList → Text.index? label.toList = none →
          d.parse key typed = .ok (.choice index)) := by
  cases hspec : d.spec with
  | choice default options =>
    have hoptions : d.options = options := by
      rw [Descriptor.options, hspec]
      rfl
    rw [hoptions] at hunlike hindex
    have ho := List.getElem?_eq_getElem hindex
    refine ⟨options[index.toNat].label, by rw [optionLabel?, hoptions, ho]; rfl, ?_⟩
    intro typed hsame
    rw [Text.sameLetters_iff] at hsame
    have htrim := Text.trim_map Text.isBlank_toLower typed.toList
    rw [hsame, Text.trim_map Text.isBlank_toLower] at htrim
    have hread := Text.index?_toLower (Text.trim typed.toList)
    rw [← htrim, Text.index?_toLower] at hread
    constructor
    · intro n hn
      exact parse_choice hspec (option?_of_index (hread.symm.trans hn))
    · intro hlabel hnone
      rw [hlabel] at htrim hread
      exact parse_choice hspec (option?_of_label hunlike ho (hread.symm.trans hnone) htrim.symm)
  | _ =>
    rw [Descriptor.options, hspec] at hindex
    cases hindex

/-- The third label reads as the place of the second option, and chooses that. -/
theorem Descriptor.parse_label_tool :
    let d := Descriptor.choice "Tool" "" 0 [⟨"", "Front left"⟩, ⟨"", "back"⟩, ⟨"", "+1"⟩]
    d.parse "tool" "fRONT lEFT" = .ok (.choice 0) ∧ d.parse "tool" "+1" = .ok (.choice 1) := by
  intro d
  have hunlike : Unlike d.options := by decide
  obtain ⟨front, hfront, hparse⟩ := parse_label d hunlike "tool" 0 (by decide)
  obtain rfl : "Front left" = front := Option.some.inj hfront
  obtain ⟨place, hplace, hread⟩ := parse_label d hunlike "tool" 2 (by decide)
  obtain rfl : "+1" = place := Option.some.inj hplace
  exact ⟨(hparse "fRONT lEFT" (by decide)).2 (by decide) (by decide),
    (hread "+1" (by decide)).1 1 (by decide)⟩

/-- Not every label chooses its own option: one reads as an index, another begins with a blank. -/
theorem Descriptor.parse_label_misread :
    let d := Descriptor.choice "Tool" "" 0 [⟨"", "1"⟩, ⟨"", " B"⟩]
    Unlike d.options ∧
    d.optionLabel? (.choice 0) = some "1" ∧ d.parse "tool" "1" = .ok (.choice 1) ∧
    d.optionLabel? (.choice 1) = some " B" ∧
      d.parse "tool" " B" = .error (.invalidValue "tool" " B") := by
  decide

end Setting

end ProbeCycle
