import LayoutCompiler.Proofs.Json.Ignored

/-
A spelled text is read as the characters that its letters stand for, and fails if half of a
pair of surrogates is alone (`scanText_letters`). A spelled number is read as the integer
that it is, or as no integer at all (`counts_numeral`). Neither depends on what comes
behind, but for the number that it stops there.
-/

namespace LayoutCompiler.Json

open Number (isDigit)

variable {α β : Type}

/-- The result of reading: the value `a` with a rest as wanted for `some a`, and a failure for
`none`. -/
inductive Yields (P : List Char → Prop) : Option α → Except Failure (α × List Char) → Prop
  | value {a : α} {r : List Char} (rest : P r) : Yields P (some a) (.ok (a, r))
  | failure {e : Failure} : Yields P none (.error e)

theorem Yields.map {P : List Char → Prop} {o : Option α} {result : Except Failure (α × List Char)}
    (h : Yields P o result) (f : α → β) :
    Yields P (o.map f) (result.map fun p => (f p.1, p.2)) := by
  cases h with
  | value hr => exact .value hr
  | failure => exact .failure

theorem Yields.mono {P Q : List Char → Prop} {o : Option α}
    {result : Except Failure (α × List Char)} (h : Yields P o result) (hPQ : ∀ r, P r → Q r) :
    Yields Q o result := by
  cases h with
  | value hr => exact .value (hPQ _ hr)
  | failure => exact .failure

/-! ### Texts -/

theorem scanText_escape_error {acc s : List Char} {e : Failure} (h : escape s = .error e) :
    scanText acc ('\\' :: s) = .error e := by
  rw [scanText]
  split
  · next e' he =>
    rw [h] at he
    cases he
    rfl
  · next he =>
    rw [h] at he
    cases he

theorem escape_short {c d : Char} (h : shortEscape? c = some d) (rest : List Char) :
    escape (c :: rest) = .ok (d, rest) := by
  rw [escape]
  · simp [h]
  · exact ne_u_of_shortEscape? h

theorem spelling_code_append {digits : List Char} {n : Nat} (hfour : digits.length = 4)
    (hnumber : Text.hexNumber? digits = some n) (rest : List Char) :
    (Letter.code digits n hfour hnumber).spelling ++ rest = '\\' :: 'u' :: (digits ++ rest) :=
  rfl

theorem escape_code {digits : List Char} {n : Nat} (hfour : digits.length = 4)
    (hnumber : Text.hexNumber? digits = some n) (rest : List Char) :
    escape ('u' :: (digits ++ rest)) =
      if isLeadingSurrogate n then secondSurrogate n rest
      else if isTrailingSurrogate n then .error (.before .loneSurrogate rest)
      else .ok (Char.ofNat n, rest) := by
  rw [escape, hex4_append hfour hnumber]

theorem unescape_code {digits : List Char} {n : Nat} {hfour : digits.length = 4}
    {hnumber : Text.hexNumber? digits = some n} {ls : List Letter} (h : ¬ isLeadingSurrogate n) :
    Letter.unescape (.code digits n hfour hnumber :: ls) =
      if isTrailingSurrogate n then none
      else (Letter.unescape ls).map (Char.ofNat n :: ·) := by
  rw [Letter.unescape.eq_def]
  exact if_neg h

theorem secondSurrogate_code {high : Nat} {digits : List Char} {n : Nat}
    (hfour : digits.length = 4) (hnumber : Text.hexNumber? digits = some n) (rest : List Char) :
    secondSurrogate high ('\\' :: 'u' :: (digits ++ rest)) =
      if isTrailingSurrogate n then .ok (Char.ofNat (joinSurrogates high n), rest)
      else .error (.before .loneSurrogate rest) := by
  rw [secondSurrogate, hex4_append hfour hnumber]

/-- The first half of a pair of surrogates must be followed by another escape of four digits. -/
theorem secondSurrogate_error (high : Nat) {letters : List Letter}
    (h : ∀ digits n hfour hnumber ls, letters ≠ .code digits n hfour hnumber :: ls)
    (rest : List Char) :
    ∃ e, secondSurrogate high (letters.flatMap Letter.spelling ++ '"' :: rest) = .error e := by
  cases letters with
  | nil => exact ⟨_, rfl⟩
  | cons l ls =>
    cases l with
    | plain c hquote hslash hcontrol => exact ⟨_, by
        rw [List.flatMap_cons, Letter.spelling, List.append_assoc, List.singleton_append,
          secondSurrogate]
        all_goals simp [hslash]⟩
    | short c d hescape => exact ⟨_, by
        rw [List.flatMap_cons, Letter.spelling, List.append_assoc, List.cons_append,
          List.singleton_append, secondSurrogate]
        all_goals simp [ne_u_of_shortEscape? hescape]⟩
    | code digits n hfour hnumber => exact absurd rfl (h digits n hfour hnumber ls)

/-- A text is read as what its letters stand for. -/
theorem scanText_letters (acc : List Char) (letters : List Letter) (rest : List Char) :
    Yields (· = rest) ((Letter.unescape letters).map fun cs => String.ofList (acc.reverse ++ cs))
      (scanText acc (letters.flatMap Letter.spelling ++ '"' :: rest)) := by
  -- As in `unescape`, two letters are taken at once where they are a pair of surrogates.
  induction letters using Letter.unescape.induct generalizing acc with
  | case1 =>
    simp only [Letter.unescape, Option.map_some, List.append_nil, List.flatMap_nil, List.nil_append]
    rw [scanText]
    exact .value rfl
  | case2 c hquote hslash hcontrol ls ih =>
    have hrest := ih (c :: acc)
    rw [List.flatMap_cons, Letter.spelling, List.append_assoc, List.singleton_append,
      scanText_plain hquote hslash (by simpa [isControl] using hcontrol)]
    simpa [Letter.unescape, Function.comp_def] using hrest
  | case3 c d hescape ls ih =>
    have hrest := ih (d :: acc)
    rw [List.flatMap_cons, Letter.spelling, List.append_assoc, List.cons_append,
      List.singleton_append, scanText_escape (escape_short hescape _)]
    simpa [Letter.unescape, Function.comp_def] using hrest
  | case4 digits n hfour hnumber hleading digits' m hfour' hnumber' ls htrailing ih =>
    have hrest := ih (Char.ofNat (joinSurrogates n m) :: acc)
    rw [List.flatMap_cons, List.flatMap_cons, List.append_assoc, List.append_assoc,
      spelling_code_append, spelling_code_append]
    have hescape := escape_code hfour hnumber
      ('\\' :: 'u' :: (digits' ++ (ls.flatMap Letter.spelling ++ '"' :: rest)))
    rw [if_pos hleading, secondSurrogate_code hfour' hnumber', if_pos htrailing] at hescape
    rw [scanText_escape hescape]
    simpa [Letter.unescape, hleading, htrailing, Function.comp_def] using hrest
  | case5 digits n hfour hnumber hleading digits' m hfour' hnumber' ls htrailing =>
    rw [List.flatMap_cons, List.flatMap_cons, List.append_assoc, List.append_assoc,
      spelling_code_append, spelling_code_append]
    have hescape := escape_code hfour hnumber
      ('\\' :: 'u' :: (digits' ++ (ls.flatMap Letter.spelling ++ '"' :: rest)))
    rw [if_pos hleading, secondSurrogate_code hfour' hnumber', if_neg htrailing] at hescape
    rw [scanText_escape_error hescape]
    simpa [Letter.unescape, hleading, htrailing] using .failure
  | case6 digits n hfour hnumber ls hleading hother =>
    obtain ⟨e, he⟩ := secondSurrogate_error n hother rest
    rw [List.flatMap_cons, List.append_assoc, spelling_code_append]
    have hescape := escape_code hfour hnumber (ls.flatMap Letter.spelling ++ '"' :: rest)
    rw [if_pos hleading, he] at hescape
    rw [scanText_escape_error hescape]
    have hnone : Letter.unescape (.code digits n hfour hnumber :: ls) = none := by
      rw [Letter.unescape, if_pos hleading]
      exact hother
    rw [hnone]
    exact .failure
  | case7 digits n hfour hnumber ls hleading htrailing =>
    rw [List.flatMap_cons, List.append_assoc, spelling_code_append]
    have hescape := escape_code hfour hnumber (ls.flatMap Letter.spelling ++ '"' :: rest)
    rw [if_neg hleading, if_pos htrailing] at hescape
    rw [scanText_escape_error hescape]
    rw [unescape_code hleading, if_pos htrailing]
    exact .failure
  | case8 digits n hfour hnumber ls hleading htrailing ih =>
    have hrest := ih (Char.ofNat n :: acc)
    rw [List.flatMap_cons, List.append_assoc, spelling_code_append]
    have hescape := escape_code hfour hnumber (ls.flatMap Letter.spelling ++ '"' :: rest)
    rw [if_neg hleading, if_neg htrailing] at hescape
    rw [scanText_escape hescape, unescape_code hleading, if_neg htrailing]
    simpa [Function.comp_def] using hrest

/-! ### Integers -/

/-- The integer of a number without point and exponent; `none` if it does not fit a word of 64 bits
or is minus zero. -/
def Significand.integer? (s : Significand) (negative : Bool) : Option Int :=
  if s.exponent ≠ 0 then none
  else if !negative then some s.kept
  else if s.kept = 0 ∨ 0x8000000000000000 < s.kept then none
  else some (-s.kept)

/-- The integer that a number is read as, if it is. -/
def NumberForm.integer? (n : NumberForm) : Option Int :=
  match n.fraction, n.exponent with
  | none, none => (Significand.ofWhole n.whole.chars).integer? n.negative
  | _, _ => none

/-- The result of reading a number: the integer `i` for `some i`, and none for `none`. -/
inductive Counts (rest : List Char) : Option Int → Except Failure (Numeral × List Char) → Prop
  | integer {i : Int} : Counts rest (some i) (.ok (.integer i, rest))
  | other {result : Except Failure (Numeral × List Char)}
    (h : ∀ i r, result ≠ .ok (.integer i, r)) : Counts rest none result

theorem numeral_ne_integer (s : Significand) (negative : Bool) (rest : List Char) (i : Int)
    (r : List Char) : s.numeral negative rest ≠ .ok (.integer i, r) := by
  unfold Significand.numeral
  cases s.pattern? <;> simp

theorem exponent_ne_integer (s : Significand) (negative : Bool) (cs : List Char) (i : Int)
    (r : List Char) : exponent s negative cs ≠ .ok (.integer i, r) := by
  unfold exponent
  generalize Number.splitSign cs = parts
  obtain ⟨down, digits⟩ := parts
  simp only
  split
  · simp
  · split
    · simp
    · split
      · split <;> simp
      · exact numeral_ne_integer _ _ _ _ _

theorem fraction_ne_integer (s : Significand) (negative : Bool) (cs : List Char) (i : Int)
    (r : List Char) : fraction s negative cs ≠ .ok (.integer i, r) := by
  unfold fraction
  split
  · simp
  · split
    · simp
    · simp only
      split
      · exact exponent_ne_integer _ _ _ _ _
      · exact exponent_ne_integer _ _ _ _ _
      · exact numeral_ne_integer _ _ _ _ _

theorem counts_whole (s : Significand) (negative : Bool) (rest : List Char) :
    Counts rest (s.integer? negative) (s.whole negative rest) := by
  unfold Significand.whole Significand.integer?
  split
  · exact .other (numeral_ne_integer _ _ _)
  · split
    · exact .integer
    · split
      · exact .other (by simp)
      · exact .integer

/-- A number is read as the integer it is, or as no integer. -/
theorem counts_unsignedNumeral (n : NumberForm) {rest : List Char} (h : Stops rest) :
    Counts rest n.integer?
      (unsignedNumeral n.negative (n.whole.chars ++ (n.tail ++ rest))) := by
  obtain ⟨c, cs, hcs, hc⟩ := n.whole.eq_cons
  obtain ⟨hdigits, hnext⟩ := n.afterWhole hcs (n.noDigit_tail h)
  rw [hcs, List.cons_append]
  simp only [unsignedNumeral, hc, hdigits, hnext, Bool.not_true, Bool.false_eq_true, if_false]
  unfold NumberForm.tail NumberForm.integer?
  cases n.fraction with
  | some d => exact .other (by simpa using fraction_ne_integer _ _ _)
  | none =>
    cases n.exponent with
    | some e =>
      refine .other ?_
      rcases e.letter_eq with hletter | hletter <;>
        simpa [exponentSpelling, hletter] using exponent_ne_integer _ _ _
    | none =>
      have hwhole := counts_whole (Significand.ofWhole n.whole.chars) n.negative rest
      rw [hcs] at hwhole
      cases rest with
      | nil => simpa [exponentSpelling, hcs] using hwhole
      | cons b rest =>
        obtain ⟨hpoint, hsmall, hlarge⟩ := h.ne
        simpa [exponentSpelling, h.noDigit b rfl, hcs] using hwhole

theorem counts_numeral (n : NumberForm) {rest : List Char} (h : Stops rest) :
    Counts rest n.integer? (numeral (n.spelling ++ rest)) := by
  have hunsigned := counts_unsignedNumeral n h
  unfold NumberForm.spelling
  cases hnegative : n.negative with
  | true => simpa [numeral, hnegative] using hunsigned
  | false =>
    obtain ⟨c, cs, hcs, hc⟩ := n.whole.eq_cons
    have hminus : c ≠ '-' := by
      rintro rfl
      exact absurd hc (by decide)
    rw [hcs, hnegative] at hunsigned
    simpa [numeral, hminus, hcs] using hunsigned

end LayoutCompiler.Json
