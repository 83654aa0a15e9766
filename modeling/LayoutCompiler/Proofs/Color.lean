import LayoutCompiler.Color
import LayoutCompiler.Proofs.Text.Hexadecimal

/-
Which texts are colors, which ones they are, and why all others are none. What counts is
what is left of a text without the blanks around it and one number sign before it
(`parse_eq_iff`); that is three, six or eight digits, or else one of them is no digit, or
there is another number of them. Hence every color is read from its own text
(`parse_meaning`).
-/

namespace LayoutCompiler.Color

open Text (IsHexDigit SameLetters Trimmed hexNumber? hexNumber?_eq hexPadded hexValue isBlank)

/-- Digits, each written twice. -/
def doubled (r : List Char) : List Char :=
  r.flatMap fun c => [c, c]

theorem forall_mem_doubled {P : Char → Prop} {r : List Char} (h : ∀ c ∈ r, P c) :
    ∀ c ∈ doubled r, P c := by
  intro c hc
  obtain ⟨d, hd, hc⟩ := List.mem_flatMap.mp hc
  obtain rfl : c = d := by simpa using hc
  exact h c hd

theorem length_doubled (r : List Char) : (doubled r).length = 2 * r.length := by
  simp [doubled, List.length_flatMap, Nat.mul_comm]

/-! ### Values -/

theorem hexValue_lt_size {ds : List Char} (hdigits : ∀ d ∈ ds, IsHexDigit d)
    (hlength : ds.length ≤ 8) : hexValue ds < 2 ^ 32 :=
  calc hexValue ds < 16 ^ ds.length := Text.hexValue_lt hdigits
    _ ≤ 16 ^ 8 := Nat.pow_le_pow_right (by decide) hlength
    _ = 2 ^ 32 := by decide

/-- The color of eight digits. -/
theorem argb_ofDigitValues {ds : List Char} (hdigits : ∀ d ∈ ds, IsHexDigit d)
    (hlength : ds.length ≤ 8) :
    (ofDigitValues (ds.map fun c => Text.hexAlphabet.idxOf c.toLower)).argb.toNat =
      hexValue ds := by
  rw [ofDigitValues, Text.ofDigitValues_map]
  exact Nat.mod_eq_of_lt (hexValue_lt_size hdigits hlength)

/-- The opaque color of six digits: two digits of the greatest value come before them. -/
theorem argb_opaqueOfDigitValues {ds : List Char} (hdigits : ∀ d ∈ ds, IsHexDigit d)
    (hlength : ds.length = 6) :
    (opaqueOfDigitValues (ds.map fun c => Text.hexAlphabet.idxOf c.toLower)).argb.toNat =
      0xFF000000 + hexValue ds := by
  have hall : ∀ d ∈ ['f', 'f'] ++ ds, IsHexDigit d :=
    List.forall_mem_append.mpr ⟨by simp [IsHexDigit, Text.hexAlphabet], hdigits⟩
  have hvalue : hexValue ['f', 'f'] = 0xFF := by decide
  have hargb := argb_ofDigitValues hall (by simp [hlength])
  rw [Text.hexValue_append, hlength, hvalue] at hargb
  exact hargb

/-! ### Reading -/

/-- What becomes of a text of which digits are left without blanks and number sign. -/
theorem parse_of_digits (s : String) {r : List Char}
    (hr : withoutSign (Text.trim s.toList) = r) (hdigits : ∀ d ∈ r, IsHexDigit d) :
    parse s =
      if r.length = 3 then
        .ok (opaqueOfDigitValues ((doubled r).map fun c => Text.hexAlphabet.idxOf c.toLower))
      else if r.length = 6 then
        .ok (opaqueOfDigitValues (r.map fun c => Text.hexAlphabet.idxOf c.toLower))
      else if r.length = 8 then
        .ok (ofDigitValues (r.map fun c => Text.hexAlphabet.idxOf c.toLower))
      else .error (.invalidLength s r.length) := by
  rw [parse, hr, Text.mapM_digitValue?_of_digits hdigits]
  dsimp only
  rw [List.length_map]
  split
  case h_1 h => rw [if_pos h, doubled, List.map_flatMap, List.flatMap_map]; rfl
  case h_2 h => simp [h]
  case h_3 h => simp [h]
  case h_4 h3 h6 h8 => rw [if_neg h3, if_neg h6, if_neg h8]

theorem parse_of_not_digit (s : String) {r : List Char} {d : Char}
    (hr : withoutSign (Text.trim s.toList) = r) (hmem : d ∈ r) (hdigit : ¬IsHexDigit d) :
    parse s = .error (.invalidDigit s) := by
  rw [parse, hr, Text.mapM_digitValue?_of_not_digit hmem hdigit]

/-- What a text is of which `r` is left without blanks and number sign: the color of eight digits,
an opaque one of six digits or of three that are doubled, or no color, for one of two reasons. -/
inductive Meaning (s : String) (r : List Char) : Except Error Color → Prop where
  | eight {c : Color} : (∀ d ∈ r, IsHexDigit d) → r.length = 8 → c.argb.toNat = hexValue r →
      Meaning s r (.ok c)
  | six {c : Color} : (∀ d ∈ r, IsHexDigit d) → r.length = 6 →
      c.argb.toNat = 0xFF000000 + hexValue r → Meaning s r (.ok c)
  | three {c : Color} : (∀ d ∈ r, IsHexDigit d) → r.length = 3 →
      c.argb.toNat = 0xFF000000 + hexValue (doubled r) → Meaning s r (.ok c)
  | invalidDigit {d : Char} : d ∈ r → ¬IsHexDigit d → Meaning s r (.error (.invalidDigit s))
  | invalidLength : (∀ d ∈ r, IsHexDigit d) → r.length ≠ 3 → r.length ≠ 6 → r.length ≠ 8 →
      Meaning s r (.error (.invalidLength s r.length))

section Meaning

variable {s : String} {r : List Char}

theorem meaning_parse (hr : withoutSign (Text.trim s.toList) = r) : Meaning s r (parse s) := by
  by_cases hdigits : ∀ d ∈ r, IsHexDigit d
  · rw [parse_of_digits s hr hdigits]
    split
    case isTrue h3 =>
      have hlength : (doubled r).length = 6 := by rw [length_doubled, h3]
      exact .three hdigits h3 (argb_opaqueOfDigitValues (forall_mem_doubled hdigits) hlength)
    case isFalse h3 =>
      split
      case isTrue h6 => exact .six hdigits h6 (argb_opaqueOfDigitValues hdigits h6)
      case isFalse h6 =>
        split
        case isTrue h8 => exact .eight hdigits h8 (argb_ofDigitValues hdigits (Nat.le_of_eq h8))
        case isFalse h8 => exact .invalidLength hdigits h3 h6 h8
  · simp only [not_forall] at hdigits
    obtain ⟨d, hmem, hdigit⟩ := hdigits
    rw [parse_of_not_digit s hr hmem hdigit]
    exact .invalidDigit hmem hdigit

theorem eq_of_argb {c c' : Color} (h : c.argb.toNat = c'.argb.toNat) : c = c' := by
  cases c
  cases c'
  exact congrArg Color.mk (UInt32.toNat_inj.mp h)

/-- There is one meaning, and reading finds it. -/
theorem Meaning.parse_eq {o : Except Error Color} (h : Meaning s r o)
    (hr : withoutSign (Text.trim s.toList) = r) : parse s = o := by
  cases h with
  | eight hdigits hlength hvalue =>
    rw [parse_of_digits s hr hdigits, if_neg (by omega), if_neg (by omega), if_pos hlength]
    exact congrArg _ (eq_of_argb ((argb_ofDigitValues hdigits (by omega)).trans hvalue.symm))
  | six hdigits hlength hvalue =>
    rw [parse_of_digits s hr hdigits, if_neg (by omega), if_pos hlength]
    exact congrArg _ (eq_of_argb ((argb_opaqueOfDigitValues hdigits hlength).trans hvalue.symm))
  | three hdigits hlength hvalue =>
    have hdoubled : (doubled r).length = 6 := by rw [length_doubled, hlength]
    rw [parse_of_digits s hr hdigits, if_pos hlength]
    exact congrArg _ (eq_of_argb
      ((argb_opaqueOfDigitValues (forall_mem_doubled hdigits) hdoubled).trans hvalue.symm))
  | invalidDigit hmem hdigit => exact parse_of_not_digit s hr hmem hdigit
  | invalidLength hdigits h3 h6 h8 =>
    rw [parse_of_digits s hr hdigits, if_neg h3, if_neg h6, if_neg h8]

end Meaning

/-- A text is what its meaning says, once the blanks around it and a number sign are left out. -/
theorem parse_eq_iff (s : String) (o : Except Error Color) :
    parse s = o ↔ ∃ body, Trimmed s.toList body ∧ Meaning s (withoutSign body) o := by
  constructor
  · rintro rfl
    exact ⟨_, Text.trimmed_trim s.toList, meaning_parse rfl⟩
  · rintro ⟨body, hbody, h⟩
    exact h.parse_eq (by rw [Text.trim_of_trimmed hbody])

/-! ### Letter case and the texts of colors -/

theorem eq_sign_of_toLower (c : Char) : c.toLower = '#' → c = '#' := by
  induction c using Text.forall_char with
  | hascii n h =>
    exact (by decide : ∀ n < 128, (Char.ofNat n).toLower = '#' → Char.ofNat n = '#') n h
  | hother c h =>
    rw [Text.toLower_of_le h]
    exact id

theorem withoutSign_cons_of_ne {c : Char} (h : c ≠ '#') (cs : List Char) :
    withoutSign (c :: cs) = c :: cs := by
  unfold withoutSign
  split
  case h_1 heq => exact absurd (List.cons.inj heq).1 h
  case h_2 => rfl

theorem withoutSign_map_toLower (cs : List Char) :
    withoutSign (cs.map Char.toLower) = (withoutSign cs).map Char.toLower := by
  cases cs with
  | nil => rfl
  | cons c cs =>
    by_cases h : c = '#'
    · rw [h]
      rfl
    · rw [List.map_cons, withoutSign_cons_of_ne (mt (eq_sign_of_toLower c) h),
        withoutSign_cons_of_ne h, List.map_cons]

/-- Letter case does not matter. -/
theorem parse_of_sameLetters {s s' : String} {c : Color} (h : SameLetters s.toList s'.toList)
    (hs : parse s = .ok c) : parse s' = .ok c := by
  have hrest : SameLetters (withoutSign (Text.trim s.toList))
      (withoutSign (Text.trim s'.toList)) := by
    rw [SameLetters, ← withoutSign_map_toLower, ← withoutSign_map_toLower, h.trim]
  rw [parse, hrest.mapM_digitValue?] at hs
  rw [parse]
  cases hdigits : (withoutSign (Text.trim s'.toList)).mapM Text.digitValue? with
  | none =>
    rw [hdigits] at hs
    cases hs
  | some ds =>
    rw [hdigits] at hs
    dsimp only at hs ⊢
    split at hs
    case h_1 | h_2 | h_3 => exact hs
    case h_4 => cases hs

theorem isHexDigit_hexDigit : ∀ n < 16, IsHexDigit (Text.hexDigit n) := by
  decide

/-- The text of a color has a number sign and the eight digits of its value. -/
theorem sameLetters_text (c : Color) :
    SameLetters c.text.toList ('#' :: hexPadded 8 c.argb.toNat) := by
  have hlower : ∀ d ∈ hexPadded 8 c.argb.toNat, d.toUpper.toLower = d.toLower := by
    intro d hd
    obtain ⟨n, hn, rfl⟩ := Text.exists_of_mem_hexPadded hd
    exact (by decide : ∀ n < 16,
      (Text.hexDigit n).toUpper.toLower = (Text.hexDigit n).toLower) n hn
  rw [SameLetters, text, String.toList_ofList, List.map_cons, List.map_cons, List.map_map]
  exact congrArg _ (List.map_congr_left hlower)

/-- Eight digits are read as the color whose value they are, with or without number sign. -/
theorem parse_hexPadded (c : Color) {front body back : List Char}
    (hfront : ∀ b ∈ front, isBlank b = true) (hback : ∀ b ∈ back, isBlank b = true)
    (hbody : body = '#' :: hexPadded 8 c.argb.toNat ∨ body = hexPadded 8 c.argb.toNat) :
    parse (String.ofList (front ++ body ++ back)) = .ok c := by
  have hdigits : ∀ d ∈ hexPadded 8 c.argb.toNat, IsHexDigit d := by
    intro d hd
    obtain ⟨n, hn, rfl⟩ := Text.exists_of_mem_hexPadded hd
    exact isHexDigit_hexDigit n hn
  have hinside : ∀ d ∈ body, isBlank d = false := by
    have hpadded : ∀ d ∈ hexPadded 8 c.argb.toNat, isBlank d = false := fun d hd =>
      Text.isBlank_of_isHexDigit (hdigits d hd)
    rcases hbody with rfl | rfl
    · exact List.forall_mem_cons.mpr ⟨by decide, hpadded⟩
    · exact hpadded
  have htrimmed : Trimmed (String.ofList (front ++ body ++ back)).toList body :=
    ⟨⟨front, back, String.toList_ofList, hfront, hback⟩,
      fun d hd => hinside d (List.mem_of_mem_head? hd),
      fun d hd => hinside d (List.mem_of_getLast? hd)⟩
  have hsign : withoutSign body = hexPadded 8 c.argb.toNat := by
    rcases hbody with rfl | rfl
    · rfl
    · obtain ⟨d, ds, hcons⟩ := List.exists_cons_of_length_eq_add_one
        (Text.length_hexPadded 8 c.argb.toNat)
      have hd : IsHexDigit d := hdigits d (hcons ▸ List.mem_cons_self)
      rw [hcons]
      refine withoutSign_cons_of_ne ?_ ds
      rintro rfl
      exact absurd hd (by decide)
  have hvalue : hexValue (hexPadded 8 c.argb.toNat) = c.argb.toNat := by
    have hread := Text.hexNumber?_hexPadded (w := 8) c.argb.toNat_lt
    rw [hexNumber?_eq hdigits] at hread
    exact Option.some.inj hread
  refine (parse_eq_iff _ _).mpr ⟨body, htrimmed, ?_⟩
  rw [hsign]
  exact .eight hdigits (Text.length_hexPadded 8 _) hvalue.symm

/-- **What texts of colors mean.** A text is a color if and only if, without the blanks around it
and one number sign before it, it is three, six or eight hexadecimal digits in either letter case,
and these determine the color; otherwise some character is no digit, or else there is another number
of digits. Eight digits never stand for a number that does not fit. Every color is read from its own
text, in either letter case, with or without the number sign, and with any blanks around it. -/
theorem parse_meaning :
    (∀ s o, parse s = o ↔ ∃ body, Trimmed s.toList body ∧ Meaning s (withoutSign body) o) ∧
      (∀ s body, Trimmed s.toList body → ((∃ c, parse s = .ok c) ↔
        (∀ d ∈ withoutSign body, IsHexDigit d) ∧ ((withoutSign body).length = 3 ∨
          (withoutSign body).length = 6 ∨ (withoutSign body).length = 8))) ∧
      (∀ ds, (∀ d ∈ ds, IsHexDigit d) → ds.length ≤ 8 → ∃ n < 2 ^ 32, hexNumber? ds = some n) ∧
      (∀ s s' c, SameLetters s.toList s'.toList → (parse s = .ok c ↔ parse s' = .ok c)) ∧
      ∀ (c : Color) (front digits back : List Char), (∀ b ∈ front, isBlank b = true) →
        (∀ b ∈ back, isBlank b = true) →
        (SameLetters digits c.text.toList ∨ SameLetters digits (withoutSign c.text.toList)) →
        parse (String.ofList (front ++ digits ++ back)) = .ok c := by
  refine ⟨parse_eq_iff, fun s body hbody => ?_, fun ds hdigits hlength => ?_,
    fun s s' c h => ⟨parse_of_sameLetters h, parse_of_sameLetters h.symm⟩,
    fun c front digits back hfront hback hdigits => ?_⟩
  · have hmeaning := meaning_parse (congrArg withoutSign (Text.trim_of_trimmed hbody))
    constructor
    · rintro ⟨c, hc⟩
      rw [hc] at hmeaning
      cases hmeaning with
      | eight hdigits hlength _ => exact ⟨hdigits, .inr (.inr hlength)⟩
      | six hdigits hlength _ => exact ⟨hdigits, .inr (.inl hlength)⟩
      | three hdigits hlength _ => exact ⟨hdigits, .inl hlength⟩
    · rintro ⟨hdigits, hlength⟩
      cases hparse : parse s with
      | ok c => exact ⟨c, rfl⟩
      | error e =>
        rw [hparse] at hmeaning
        cases hmeaning with
        | invalidDigit hmem hdigit => exact absurd (hdigits _ hmem) hdigit
        | invalidLength _ h3 h6 h8 => exact absurd hlength (by simp [h3, h6, h8])
  · exact ⟨hexValue ds, hexValue_lt_size hdigits hlength, hexNumber?_eq hdigits⟩
  · obtain ⟨body, hbody, hsame⟩ : ∃ body, (body = '#' :: hexPadded 8 c.argb.toNat ∨
        body = hexPadded 8 c.argb.toNat) ∧ SameLetters body digits := by
      rcases hdigits with hdigits | hdigits
      · exact ⟨_, .inl rfl, (hdigits.trans (sameLetters_text c)).symm⟩
      · refine ⟨_, .inr rfl, (hdigits.trans ?_).symm⟩
        rw [← withoutSign_map_toLower, sameLetters_text c, withoutSign_map_toLower]
        rfl
    refine parse_of_sameLetters ?_ (parse_hexPadded c hfront hback hbody)
    rw [SameLetters, String.toList_ofList, String.toList_ofList]
    simp only [List.map_append]
    rw [hsame]

/-- A color is read from its digits in lower case, between blanks of two kinds. -/
theorem parse_meaning_lowerCase :
    (∀ b ∈ [' '], isBlank b = true) ∧ (∀ b ∈ ['\u3000'], isBlank b = true) ∧
      SameLetters "#ff6200ea".toList (text ⟨0xFF6200EA⟩).toList ∧
      parse (String.ofList ([' '] ++ "#ff6200ea".toList ++ ['\u3000'])) = .ok ⟨0xFF6200EA⟩ :=
  have hfront : ∀ b ∈ [' '], isBlank b = true := List.forall_mem_singleton.mpr (by decide)
  have hback : ∀ b ∈ ['\u3000'], isBlank b = true := List.forall_mem_singleton.mpr (by decide)
  have hsame : SameLetters "#ff6200ea".toList (text ⟨0xFF6200EA⟩).toList := by
    unfold SameLetters
    decide
  ⟨hfront, hback, hsame, parse_meaning.2.2.2.2 _ _ _ _ hfront hback (.inl hsame)⟩

end LayoutCompiler.Color
