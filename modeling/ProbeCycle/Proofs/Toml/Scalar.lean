import ProbeCycle.Proofs.ReadBack
import ProbeCycle.Toml.Writer

namespace ProbeCycle.Toml

variable {cs rest : List Char}

private theorem toNat_lt_of_not_isPlain {c : Char} (h : ¬ isPlain c = true) : c.toNat < 128 := by
  by_contra hc
  have hspace : ' ' ≤ c := Char.le_def.2 (UInt32.le_iff_toNat_le.2 (by
    change 32 ≤ c.toNat
    omega))
  have hdelete : c ≠ '\x7f' := by
    rintro rfl
    exact hc (by decide)
  exact h (by simp [isPlain, hspace, hdelete])

private theorem place?_control :
    ∀ n < 128, place? ((Text.hex4 n).map Char.toUpper) = some (Char.ofNat n) := by
  decide

private theorem readBasic_place {a b c d x : Char} (rest : List Char)
    (h : place? [a, b, c, d] = some x) : readBasic ('\\' :: 'u' :: a :: b :: c :: d :: rest) =
      (readBasic rest).map fun (text, rest) => (x :: text, rest) := by
  rw [readBasic, h]
  cases readBasic rest <;> rfl

private theorem readBasic_escape {c x : Char} (rest : List Char) (hu : c ≠ 'u') (hU : c ≠ 'U')
    (h : escape? c = some x) : readBasic ('\\' :: c :: rest) =
      (readBasic rest).map fun (text, rest) => (x :: text, rest) := by
  rw [readBasic, h]
  · cases readBasic rest <;> rfl
  · intro a b c' d rest' he
    exact absurd he hu
  · intro a b c' d e f g h' rest' he
    exact absurd he hU

private theorem readBasic_plain {c : Char} (rest : List Char) (hquote : c ≠ '"')
    (hslash : c ≠ '\\') (hc : isPlain c = true) : readBasic (c :: rest) =
      (readBasic rest).map fun (text, rest) => (c :: text, rest) := by
  rw [readBasic, if_pos ⟨hc, hslash⟩]
  · cases readBasic rest <;> rfl
  · exact hquote
  · intro a b c' d rest' he
    exact absurd he hslash
  · intro a b c' d e f g h' rest' he
    exact absurd he hslash
  · intro c' rest' he
    exact absurd he hslash

/-- A character stands for itself however it is escaped. -/
theorem readBasic_writeChar (c : Char) (rest : List Char) : readBasic (writeChar c ++ rest) =
    (readBasic rest).map fun (text, rest) => (c :: text, rest) := by
  unfold writeChar
  split
  case h_1 | h_2 | h_3 | h_4 | h_5 | h_6 | h_7 =>
    exact readBasic_escape rest (by decide) (by decide) rfl
  case h_8 hquote hslash _ _ _ _ _ =>
    split
    · rename_i hc
      exact readBasic_plain rest hquote hslash hc
    · rename_i hc
      have hplace := place?_control c.toNat (toNat_lt_of_not_isPlain hc)
      rw [Char.ofNat_toNat] at hplace
      exact readBasic_place rest hplace

theorem readBasic_writeString (text : List Char) (rest : List Char) :
    readBasic (text.flatMap writeChar ++ '"' :: rest) = some (text, rest) := by
  induction text with
  | nil => rfl
  | cons c cs ih =>
    rw [List.flatMap_cons, List.append_assoc, readBasic_writeChar, ih]
    rfl

/-- What stands for a character never starts with a quote, so no text looks like three of them. -/
theorem exists_writeChar (c : Char) : ∃ d ds, writeChar c = d :: ds ∧ d ≠ '"' := by
  unfold writeChar
  split
  case h_8 hquote _ _ _ _ _ _ =>
    split
    · exact ⟨c, [], rfl, hquote⟩
    · exact ⟨'\\', _, rfl, by decide⟩
  all_goals exact ⟨'\\', _, rfl, by decide⟩

theorem readString_writeString (text : String) (rest : List Char) (h : rest.head? ≠ some '"') :
    readString (writeString text ++ rest) = some (text.toList, rest) := by
  have hbasic := readBasic_writeString text.toList rest
  have hthree : ∀ more, text.toList.flatMap writeChar ++ '"' :: rest ≠ '"' :: '"' :: more := by
    intro more he
    cases htext : text.toList with
    | nil =>
      rw [htext] at he
      obtain rfl : rest = '"' :: more := (List.cons.inj he).2
      exact h rfl
    | cons c cs =>
      obtain ⟨d, ds, hd, hne⟩ := exists_writeChar c
      rw [htext, List.flatMap_cons, hd] at he
      exact hne (List.cons.inj he).1
  have hlist : writeString text ++ rest =
      '"' :: (text.toList.flatMap writeChar ++ '"' :: rest) := by
    simp [writeString]
  rw [hlist, readString, hbasic]
  exact hthree

/-- What a key can start with, and nothing else on the left of a line can. -/
def StartsKey (c : Char) : Prop := c = '"' ∨ isBareKeyChar c = true

theorem StartsKey.ne {c d : Char} (h : StartsKey c) (hquote : d ≠ '"')
    (hbare : isBareKeyChar d = false) : c ≠ d := by
  rintro rfl
  rcases h with rfl | h
  · exact hquote rfl
  · rw [hbare] at h
    cases h

theorem exists_writeKey (key : String) : ∃ c cs, writeKey key = c :: cs ∧ StartsKey c := by
  unfold writeKey
  split
  · rename_i h
    obtain ⟨hne, hall⟩ := h
    obtain ⟨c, cs, hkey⟩ := List.exists_cons_of_ne_nil (mt String.toList_eq_nil_iff.1 hne)
    rw [hkey, List.all_cons, Bool.and_eq_true] at hall
    exact ⟨c, cs, hkey, Or.inr hall.1⟩
  · exact ⟨'"', _, rfl, Or.inl rfl⟩

theorem skipSpaces_of_startsKey {c : Char} (h : StartsKey c) (cs : List Char) :
    skipSpaces (c :: cs) = c :: cs := by
  have hspace : isSpace c = false := by
    simp [isSpace, h.ne (d := ' ') (by decide) rfl, h.ne (d := '\t') (by decide) rfl]
  rw [skipSpaces, List.dropWhile_cons, hspace]
  rfl

theorem skipSpaces_writeKey (key : String) (rest : List Char) :
    skipSpaces (writeKey key ++ rest) = writeKey key ++ rest := by
  obtain ⟨c, cs, hkey, hc⟩ := exists_writeKey key
  rw [hkey, List.cons_append, skipSpaces_of_startsKey hc]

theorem readSimpleKey_writeKey (key : String) {c : Char} (h : isBareKeyChar c = false)
    (rest : List Char) : readSimpleKey (writeKey key ++ c :: rest) = some (key, c :: rest) := by
  unfold writeKey
  split
  · rename_i hkey
    obtain ⟨hne, hall⟩ := hkey
    have hbare : ∀ d ∈ key.toList, isBareKeyChar d = true := List.all_eq_true.1 hall
    have htake : (key.toList ++ c :: rest).takeWhile isBareKeyChar = key.toList ∧
        (key.toList ++ c :: rest).dropWhile isBareKeyChar = c :: rest := by
      rw [List.takeWhile_append_of_pos hbare, List.dropWhile_append_of_pos hbare]
      simp [h]
    obtain ⟨d, ds, hd⟩ := List.exists_cons_of_ne_nil (mt String.toList_eq_nil_iff.1 hne)
    have hfirst : isBareKeyChar d = true := hbare d (hd ▸ List.mem_cons_self)
    rw [readSimpleKey, htake.1, htake.2, if_neg (by simp [hd]), String.ofList_toList]
    · intro more he
      rw [hd] at he
      obtain rfl := (List.cons.inj he).1
      cases hfirst
    · intro more he
      rw [hd] at he
      obtain rfl := (List.cons.inj he).1
      cases hfirst
  · have hlist : writeString key ++ c :: rest =
        '"' :: (key.toList.flatMap writeChar ++ '"' :: c :: rest) := by
      simp [writeString]
    rw [hlist, readSimpleKey, readBasic_writeString, Option.map_some]
    simp

theorem readParts_dotted (fuel : Nat) (key : String) (rest : List Char) :
    readParts (fuel + 1) (writeKey key ++ '.' :: rest) =
      (readParts fuel rest).map fun (parts, rest) => (key :: parts, rest) := by
  rw [readParts, skipSpaces_writeKey, readSimpleKey_writeKey key rfl]
  change ((readParts fuel rest).bind fun (parts, rest) => some (key :: parts, rest)) = _
  cases readParts fuel rest <;> rfl

theorem readParts_last (fuel : Nat) (key : String) {c : Char} (h : isBareKeyChar c = false)
    (hdot : (skipSpaces (c :: rest)).head? ≠ some '.') :
    readParts (fuel + 1) (writeKey key ++ c :: rest) = some ([key], skipSpaces (c :: rest)) := by
  rw [readParts, skipSpaces_writeKey, readSimpleKey_writeKey key h]
  simp only [Option.bind_eq_bind, Option.bind_some]
  split
  · rename_i he
    rw [he] at hdot
    exact absurd rfl hdot
  · rfl

theorem readParts_writePath {fuel : Nat} {path : List String} (hne : path ≠ [])
    (hlen : path.length ≤ fuel) :
    readParts fuel (writePath path ++ ']' :: rest) = some (path, ']' :: rest) := by
  induction path generalizing fuel with
  | nil => exact absurd rfl hne
  | cons key path ih =>
    cases fuel with
    | zero => simp at hlen
    | succ fuel =>
      cases path with
      | nil => exact readParts_last fuel key rfl nofun
      | cons key' path =>
        have htail := ih (List.cons_ne_nil _ _) (Nat.le_of_succ_le_succ hlen)
        have hlist : writePath (key :: key' :: path) ++ ']' :: rest =
            writeKey key ++ '.' :: (writePath (key' :: path) ++ ']' :: rest) := by
          simp [writePath]
        rw [hlist, readParts_dotted, htail]
        rfl

theorem exists_writePath {path : List String} (hne : path ≠ []) :
    ∃ c cs, writePath path = c :: cs ∧ StartsKey c := by
  obtain ⟨key, path, rfl⟩ := List.exists_cons_of_ne_nil hne
  obtain ⟨c, cs, hkey, hc⟩ := exists_writeKey key
  cases path with
  | nil => exact ⟨c, cs, hkey, hc⟩
  | cons key' path => exact ⟨c, _, by rw [writePath, hkey, List.cons_append]; simp, hc⟩

theorem readKey_writePath {path : List String} (key : String) (rest : List Char)
    (hlen : path.length + 1 ≤ depthLimit) :
    readKey (writePath (path ++ [key]) ++ ']' :: rest) = some ((path, key), ']' :: rest) := by
  rw [readKey, readParts_writePath (by simp) (by simpa using hlen)]
  simp

theorem readKey_writeKey (key : String) (rest : List Char) :
    readKey (writeKey key ++ ' ' :: '=' :: rest) = some (([], key), '=' :: rest) := by
  rw [readKey, depthLimit, readParts_last 78 key rfl (by simp [skipSpaces, isSpace])]
  rfl

open Text (isDigits IsWhole)

variable {ds whole fraction : List Char} {c : Char}

/-- A run of digits ends where something else than a digit or an underscore comes. -/
theorem readRun_digits (hd : ∀ d ∈ ds, d.isDigit = true) (hc : c.isDigit = false) (hline : c ≠ '_')
    (rest : List Char) : readRun Char.isDigit (ds ++ c :: rest) = (ds, c :: rest) := by
  induction ds with
  | nil =>
    rw [List.nil_append, readRun, hc]
    · rfl
    · intro c' rest' he
      exact absurd he hline
  | cons d ds ih =>
    obtain ⟨hfirst, hds⟩ := List.forall_mem_cons.1 hd
    have hne : d ≠ '_' := by
      rintro rfl
      cases hfirst
    rw [List.cons_append, readRun, hfirst, ih hds]
    · rfl
    · intro c' rest' he
      exact absurd he hne

theorem readDigits?_digits (hd : isDigits ds = true) (hc : c.isDigit = false) (hline : c ≠ '_')
    (rest : List Char) : readDigits? Char.isDigit (ds ++ c :: rest) = some (ds, c :: rest) := by
  obtain ⟨hne, hall⟩ := Text.isDigits_iff.1 hd
  obtain ⟨d, ds, rfl⟩ := List.exists_cons_of_ne_nil hne
  obtain ⟨hfirst, hds⟩ := List.forall_mem_cons.1 hall
  rw [List.cons_append, readDigits?, if_pos hfirst, readRun_digits hds hc hline]

/-- The sign of a number that may be negative. -/
def sign (negative : Bool) : List Char := if negative then ['-'] else []

theorem readSign_sign (negative : Bool) {d : Char} (hd : d.isDigit = true) (cs : List Char) :
    readSign (sign negative ++ d :: cs) = (sign negative, d :: cs) := by
  cases negative with
  | true => rfl
  | false =>
    have hplus : d ≠ '+' := by
      rintro rfl
      cases hd
    have hminus : d ≠ '-' := by
      rintro rfl
      cases hd
    rw [sign, if_neg Bool.false_ne_true, List.nil_append, readSign]
    · simpa using hplus
    · simpa using hminus

theorem readWhole?_write (negative : Bool) (hw : IsWhole whole) (hc : c.isDigit = false)
    (hline : c ≠ '_') (rest : List Char) :
    readWhole? (sign negative ++ whole ++ c :: rest) =
      some (sign negative ++ whole, c :: rest) := by
  obtain ⟨hne, hall⟩ := Text.isDigits_iff.1 hw.1
  obtain ⟨d, ds, rfl⟩ := List.exists_cons_of_ne_nil hne
  rw [List.append_assoc, List.cons_append, readWhole?,
    readSign_sign negative (hall d List.mem_cons_self)]
  by_cases hz : d = '0'
  · subst hz
    obtain rfl : ds = [] := (List.cons.inj (hw.2 rfl)).2
    rfl
  · have hdigits := readDigits?_digits hw.1 hc hline rest
    dsimp only
    split
    · rename_i he
      exact absurd (List.cons.inj he).1 hz
    · rw [← List.cons_append, hdigits]
      rfl

theorem readSpecial?_digit (negative : Bool) {d : Char} (hd : d.isDigit = true) (cs : List Char) :
    readSpecial? (sign negative ++ d :: cs) = none := by
  rw [readSpecial?, readSign_sign negative hd]
  dsimp only
  split
  · rename_i he
    rw [(List.cons.inj he).1] at hd
    cases hd
  · rename_i he
    rw [(List.cons.inj he).1] at hd
    cases hd
  · rfl

theorem twoDigits?_eq_some {n : Nat} (h : twoDigits? cs = some (n, rest)) :
    cs.dropWhile Char.isDigit = rest.dropWhile Char.isDigit := by
  unfold twoDigits? at h
  split at h
  · split at h
    · rename_i hd
      cases h
      rw [List.dropWhile_cons_of_pos hd.1, List.dropWhile_cons_of_pos hd.2]
    · cases h
  · cases h

/-- Behind the digits of a year stands a dash. -/
theorem afterDate?_eq_none (h : (cs.dropWhile Char.isDigit).head? ≠ some '-') :
    afterDate? cs = none := by
  unfold afterDate?
  cases hcentury : twoDigits? cs with
  | none => rfl
  | some read =>
    obtain ⟨century, cs'⟩ := read
    rw [twoDigits?_eq_some hcentury] at h
    cases hyear : twoDigits? cs' with
    | none => simp [hyear]
    | some read =>
      obtain ⟨year, cs''⟩ := read
      rw [twoDigits?_eq_some hyear] at h
      simp only [hyear, Option.bind_eq_bind, Option.bind_some]
      split
      · exact absurd rfl h
      · rfl

/-- Behind the digits of an hour stands a colon. -/
theorem afterTime?_eq_none (h : (cs.dropWhile Char.isDigit).head? ≠ some ':') :
    afterTime? cs = none := by
  have hminute : afterMinute? cs = none := by
    unfold afterMinute?
    cases hhour : twoDigits? cs with
    | none => rfl
    | some read =>
      obtain ⟨hour, cs'⟩ := read
      rw [twoDigits?_eq_some hhour] at h
      simp only [Option.bind_eq_bind, Option.bind_some]
      split
      · exact absurd rfl h
      · rfl
  rw [afterTime?, hminute]
  rfl

theorem afterMoment?_eq_none (hdash : (cs.dropWhile Char.isDigit).head? ≠ some '-')
    (hcolon : (cs.dropWhile Char.isDigit).head? ≠ some ':') : afterMoment? cs = none := by
  rw [afterMoment?, afterDate?_eq_none hdash, afterTime?_eq_none hcolon]

theorem afterMoment?_minus (cs : List Char) : afterMoment? ('-' :: cs) = none := by
  have htwo : twoDigits? ('-' :: cs) = none := by cases cs <;> rfl
  rw [afterMoment?, afterDate?, afterTime?, afterMinute?, htwo]
  rfl

/-- A number that ends in a point or at the end of its line is no date and no time. -/
theorem afterMoment?_number (negative : Bool) (hw : isDigits whole = true) (hc : c.isDigit = false)
    (hdash : c ≠ '-') (hcolon : c ≠ ':') (rest : List Char) :
    afterMoment? (sign negative ++ whole ++ c :: rest) = none := by
  cases negative with
  | true => exact afterMoment?_minus _
  | false =>
    have hdrop := (Text.takeWhile_digits (Text.isDigits_iff.1 hw).2 (c :: rest) (by simp [hc])).2
    have hdrop' : ((sign false ++ whole ++ c :: rest).dropWhile Char.isDigit).head? = some c :=
      congrArg List.head? hdrop
    exact afterMoment?_eq_none (hdrop' ▸ mt Option.some.inj hdash)
      (hdrop' ▸ mt Option.some.inj hcolon)

theorem readPoint?_break (rest : List Char) : readPoint? ('\n' :: rest) = none := rfl

theorem readPoint?_write (hf : isDigits fraction = true) (rest : List Char) :
    readPoint? ('.' :: (fraction ++ '\n' :: rest)) = some ('.' :: fraction, '\n' :: rest) := by
  rw [readPoint?, readDigits?_digits hf rfl (by decide)]
  rfl

theorem readDecimal?_write (negative : Bool) {units : Nat} (h : Binary64.Representable units)
    (hs : Binary64.Spelling units whole fraction) (hf : fraction ≠ []) (rest : List Char) :
    readDecimal? (sign negative ++ whole ++ '.' :: (fraction ++ '\n' :: rest)) =
      some (.finite negative units h, '\n' :: rest) := by
  have hfraction : isDigits fraction = true := Text.isDigits_iff.2 ⟨hf, hs.isDigit⟩
  have hread : Binary64.read? (sign negative ++ whole ++ '.' :: fraction) =
      some (.finite negative units h) := by
    have hspelled := hs.read? h negative
    rwa [Decimal.written, if_neg hf, ← List.append_assoc] at hspelled
  rw [readDecimal?, readWhole?_write negative hs.isWhole rfl (by decide)]
  dsimp only
  rw [readPoint?_write hfraction]
  dsimp only
  rw [hread]
  rfl

/-- A line with nothing but digits holds no decimal number. -/
theorem readDecimal?_whole (negative : Bool) (hw : IsWhole whole) (rest : List Char) :
    readDecimal? (sign negative ++ whole ++ '\n' :: rest) = none := by
  obtain ⟨hne, hall⟩ := Text.isDigits_iff.1 hw.1
  obtain ⟨d, ds, rfl⟩ := List.exists_cons_of_ne_nil hne
  rw [readDecimal?, readWhole?_write negative hw rfl (by decide)]
  dsimp only
  rw [readPoint?_break, List.append_assoc, List.cons_append,
    readSpecial?_digit negative (hall d List.mem_cons_self)]

theorem integerOf?_toInt (n : Int64) : integerOf? n.toInt = some n := by
  have hmin := n.le_toInt
  have hmax := n.toInt_lt
  rw [integerOf?, if_pos ⟨hmin, Int.le_of_lt_add_one hmax⟩, Int64.ofInt_toInt]

/-- A zero that starts a whole number is all of it, so no letter of a base can follow. -/
theorem eq_break_of_zero {negative : Bool} {x : Char} {more : List Char} (hw : IsWhole whole)
    (h : sign negative ++ whole ++ '\n' :: rest = '0' :: x :: more) : x = '\n' := by
  cases negative with
  | true => exact absurd (List.cons.inj h).1 (by decide)
  | false =>
    obtain ⟨d, ds, rfl⟩ := List.exists_cons_of_ne_nil (Text.isDigits_iff.1 hw.1).1
    obtain ⟨rfl, htail⟩ := List.cons.inj h
    obtain rfl : ds = [] := (List.cons.inj (hw.2 rfl)).2
    exact (List.cons.inj htail).1.symm

theorem splitSign_sign (negative : Bool) (hw : isDigits whole = true) :
    Text.splitSign (sign negative ++ whole) = (negative, whole) := by
  obtain ⟨hne, hall⟩ := Text.isDigits_iff.1 hw
  obtain ⟨d, ds, rfl⟩ := List.exists_cons_of_ne_nil hne
  have hsplit := Text.splitSign_of_isDigit (hall d List.mem_cons_self) ds negative
  cases negative <;> exact hsplit

theorem writeInteger_eq (n : Int) :
    writeInteger n = sign (decide (n < 0)) ++ Nat.toDigits 10 n.natAbs := by
  simp [writeInteger, sign]

theorem readInteger?_write (n : Int64) (rest : List Char) :
    readInteger? (writeInteger n.toInt ++ '\n' :: rest) = some (n, '\n' :: rest) := by
  have hw := Text.isWhole_toDigits n.toInt.natAbs
  have hn : (if decide (n.toInt < 0) = true then -(n.toInt.natAbs : Int) else n.toInt.natAbs) =
      n.toInt := by
    simp only [decide_eq_true_eq]
    split <;> omega
  rw [writeInteger_eq, readInteger?, readWhole?_write _ hw rfl (by decide)]
  · simp only [Option.bind_eq_bind, Option.bind_some, splitSign_sign _ hw.1,
      Nat.ofDigitChars_ten_toDigits, hn, integerOf?_toInt]
    rfl
  all_goals
    intro more he
    exact absurd (eq_break_of_zero hw he) (by decide)

theorem readNumeral?_integer (n : Int64) (rest : List Char) :
    readNumeral? (writeInteger n.toInt ++ '\n' :: rest) = some (.integer n, '\n' :: rest) := by
  have hw := Text.isWhole_toDigits n.toInt.natAbs
  have hinteger := readInteger?_write n rest
  rw [writeInteger_eq] at hinteger ⊢
  rw [readNumeral?, afterMoment?_number _ hw.1 rfl (by decide) (by decide),
    readDecimal?_whole _ hw, hinteger]
  rfl

/-- A finite number is written with digits on both sides of the point. -/
theorem exists_writeDecimal {units : Nat} (negative : Bool) (h : Binary64.Representable units) :
    ∃ whole fraction, Binary64.Spelling units whole fraction ∧ fraction ≠ [] ∧
      writeDecimal (.finite negative units h) = sign negative ++ whole ++ '.' :: fraction := by
  obtain ⟨whole, fraction, htext, hs⟩ := Binary64.exists_spelling h
  by_cases hf : fraction = []
  · subst hf
    have hpoint : '.' ∉ whole := fun hm =>
      absurd ((Text.isDigits_iff.1 hs.isWhole.1).2 _ hm) (by decide)
    have hzero : Binary64.Spelling units whole ['0'] :=
      ⟨hs.isWhole, by simp, fun negative h =>
        (Decimal.toBinary64_point_zero negative whole).trans (hs.denotes negative h)⟩
    refine ⟨whole, ['0'], hzero, List.cons_ne_nil _ _, ?_⟩
    simp [writeDecimal, htext, Decimal.written, hpoint, sign]
  · refine ⟨whole, fraction, hs, hf, ?_⟩
    simp [writeDecimal, htext, Decimal.written, hf, sign]

theorem readNumeral?_decimal {units : Nat} (negative : Bool) (h : Binary64.Representable units)
    (rest : List Char) : readNumeral? (writeDecimal (.finite negative units h) ++ '\n' :: rest) =
      some (.decimal (.finite negative units h), '\n' :: rest) := by
  obtain ⟨whole, fraction, hs, hf, htext⟩ := exists_writeDecimal negative h
  have hlist : writeDecimal (.finite negative units h) ++ '\n' :: rest =
      sign negative ++ whole ++ '.' :: (fraction ++ '\n' :: rest) := by
    simp [htext]
  rw [hlist, readNumeral?, afterMoment?_number _ hs.isWhole.1 rfl (by decide) (by decide),
    readDecimal?_write negative h hs hf]

/-- What starts with a digit or a minus sign is read as a numeral. -/
theorem readValue_numeral (depth fuel : Nat) (hc : c = '-' ∨ c.isDigit = true) (cs : List Char) :
    readValue depth (fuel + 1) (c :: cs) = readNumeral? (c :: cs) := by
  have hne {d : Char} (hdash : d ≠ '-') (hdigit : d.isDigit = false) : c ≠ d := by
    rintro rfl
    rcases hc with rfl | hc
    · exact hdash rfl
    · rw [hdigit] at hc
      cases hc
  have hstart : c = '+' ∨ c = '-' ∨ c.isDigit = true := Or.inr hc
  rw [readValue, if_pos hstart]
  · exact hne (by decide) rfl
  · exact hne (by decide) rfl
  · exact fun _ he _ => hne (by decide) rfl he
  · exact fun _ he _ => hne (by decide) rfl he
  · exact hne (by decide) rfl
  · exact hne (by decide) rfl

/-- A document has no numbers but finite ones. -/
def Scalar.isFinite : Scalar → Bool
  | .decimal x => x.isFinite
  | _ => true

theorem exists_numeral (negative : Bool) (hw : isDigits whole = true) (cs : List Char) :
    ∃ c more, sign negative ++ whole ++ cs = c :: more ∧ (c = '-' ∨ c.isDigit = true) := by
  cases negative with
  | true => exact ⟨'-', _, rfl, Or.inl rfl⟩
  | false =>
    obtain ⟨hne, hall⟩ := Text.isDigits_iff.1 hw
    obtain ⟨d, ds, rfl⟩ := List.exists_cons_of_ne_nil hne
    exact ⟨d, _, rfl, Or.inr (hall d List.mem_cons_self)⟩

theorem not_isSpace_of_numeral (h : c = '-' ∨ c.isDigit = true) : isSpace c = false := by
  rcases h with rfl | h
  · rfl
  · have hblank : c ≠ ' ' := by
      rintro rfl
      cases h
    have htab : c ≠ '\t' := by
      rintro rfl
      cases h
    simp [isSpace, hblank, htab]

theorem skipSpaces_writeScalar {s : Scalar} (h : s.isFinite = true) (rest : List Char) :
    skipSpaces (' ' :: (writeScalar s ++ rest)) = writeScalar s ++ rest := by
  have hstart (negative : Bool) {whole : List Char} (hw : isDigits whole = true) (cs : List Char) :
      skipSpaces (sign negative ++ whole ++ cs) = sign negative ++ whole ++ cs := by
    obtain ⟨c, more, hcs, hc⟩ := exists_numeral negative hw cs
    rw [hcs, skipSpaces, List.dropWhile_cons, not_isSpace_of_numeral hc]
    rfl
  have hblank (cs : List Char) : skipSpaces (' ' :: cs) = skipSpaces cs := rfl
  rw [hblank]
  cases s with
  | string text => rfl
  | integer n =>
    rw [writeScalar, writeInteger_eq]
    exact hstart _ (Text.isDigits_toDigits _) rest
  | decimal x =>
    cases x with
    | finite negative units hu =>
      obtain ⟨whole, fraction, hs, hf, htext⟩ := exists_writeDecimal negative hu
      rw [writeScalar, htext, List.append_assoc]
      exact hstart _ hs.isWhole.1 _
    | _ => cases h
  | bool flag => cases flag <;> rfl

/-- A value is read as it was written at the end of its line. -/
theorem readValue_writeScalar (depth fuel : Nat) {s : Scalar} (h : s.isFinite = true)
    (rest : List Char) : readValue depth (fuel + 1) (writeScalar s ++ '\n' :: rest) =
      some (s.toToml, '\n' :: rest) := by
  cases s with
  | string text =>
    have hread := readString_writeString text ('\n' :: rest) (by simp)
    have hquote : readValue depth (fuel + 1) (writeString text ++ '\n' :: rest) =
        (readString (writeString text ++ '\n' :: rest)).map
          fun (text, rest) => (.string (String.ofList text), rest) := rfl
    rw [writeScalar, hquote, hread]
    simp [Scalar.toToml]
  | integer n =>
    have hread := readNumeral?_integer n rest
    rw [writeInteger_eq] at hread
    rw [writeScalar, writeInteger_eq]
    obtain ⟨c, more, hcs, hc⟩ := exists_numeral (decide (n.toInt < 0))
      (Text.isDigits_toDigits n.toInt.natAbs) ('\n' :: rest)
    rw [hcs] at hread ⊢
    rw [readValue_numeral depth fuel hc, hread]
    rfl
  | decimal x =>
    cases x with
    | finite negative units hu =>
      have hread := readNumeral?_decimal negative hu rest
      obtain ⟨whole, fraction, hs, hf, htext⟩ := exists_writeDecimal negative hu
      obtain ⟨c, more, hcs, hc⟩ :=
        exists_numeral negative hs.isWhole.1 ('.' :: fraction ++ '\n' :: rest)
      rw [htext, List.append_assoc, hcs] at hread
      rw [writeScalar, htext, List.append_assoc, hcs, readValue_numeral depth fuel hc, hread]
      rfl
    | _ => cases h
  | bool flag => cases flag <;> rfl

end ProbeCycle.Toml
