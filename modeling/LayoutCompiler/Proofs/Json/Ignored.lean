import LayoutCompiler.Proofs.Json.Value

/-
Passing over a value takes exactly the text of that value, however deep its lists and
objects are, and whatever its texts and numbers stand for (`passes`). What is left of the
lists and objects around it does not change meanwhile.
-/

namespace LayoutCompiler.Json

open Number (isDigit)

/-! ### Texts -/

theorem passText_escape {s rest : List Char} (h : passEscape s = .ok rest) :
    passText ('\\' :: s) = passText rest := by
  rw [passText]
  split
  · next e he =>
    rw [h] at he
    cases he
  · next rest' he =>
    rw [h] at he
    cases he
    rfl

theorem ne_u_of_shortEscape? {c d : Char} (h : shortEscape? c = some d) : c ≠ 'u' := by
  rintro rfl
  cases h

/-- One letter of a text is passed over. -/
theorem passText_spelling (l : Letter) (rest : List Char) :
    passText (l.spelling ++ rest) = passText rest := by
  cases l with
  | plain c hquote hslash hcontrol =>
    rw [Letter.spelling, List.singleton_append, passText]
    · simp [hcontrol]
    · exact hquote
    · exact hslash
  | short c d hescape =>
    have hpass : passEscape (c :: rest) = .ok rest := by
      rw [passEscape]
      · simp [hescape]
      · exact ne_u_of_shortEscape? hescape
    exact passText_escape hpass
  | code digits n hfour hnumber =>
    have hpass : passEscape ('u' :: (digits ++ rest)) = .ok rest := by
      rw [passEscape, hex4_append hfour hnumber]
      rfl
    exact passText_escape hpass

/-- A text is passed over up to its closing quote. -/
theorem passText_letters (letters : List Letter) (rest : List Char) :
    passText (letters.flatMap Letter.spelling ++ '"' :: rest) = .ok rest := by
  induction letters with
  | nil => rw [List.flatMap_nil, List.nil_append, passText]
  | cons l letters ih => rw [List.flatMap_cons, List.append_assoc, passText_spelling, ih]

/-! ### Numbers -/

theorem isDigit_eq_false_of_isSpace {c : Char} (h : isSpace c = true) : isDigit c = false := by
  cases hc : isDigit c with
  | false => rfl
  | true => rw [isSpace_of_number (.inr hc)] at h; cases h

theorem Stops.noDigit {s : List Char} (h : Stops s) : NoDigit s := by
  intro c hc
  rcases h c hc with hspace | rfl | rfl | rfl
  · exact isDigit_eq_false_of_isSpace hspace
  all_goals rfl

/-- No number goes on where a value may stop. -/
theorem Stops.ne {c : Char} {s : List Char} (h : Stops (c :: s)) : c ≠ '.' ∧ c ≠ 'e' ∧ c ≠ 'E' := by
  rcases h c rfl with hspace | rfl | rfl | rfl
  · refine ⟨?_, ?_, ?_⟩ <;> rintro rfl <;> cases hspace
  all_goals decide

theorem Digits.takeWhile_append (d : Digits) {rest : List Char} (h : NoDigit rest) :
    (d.chars ++ rest).takeWhile isDigit = d.chars := by
  rw [List.takeWhile_append_of_pos d.isDigit_of_mem, takeWhile_isDigit h, List.append_nil]

theorem Digits.dropWhile_append (d : Digits) {rest : List Char} (h : NoDigit rest) :
    (d.chars ++ rest).dropWhile isDigit = rest := by
  rw [List.dropWhile_append_of_pos d.isDigit_of_mem, dropWhile_isDigit h]

theorem Digits.eq_cons (d : Digits) : ∃ c cs, d.chars = c :: cs ∧ isDigit c = true := by
  obtain ⟨c, cs, hcs⟩ := List.exists_cons_of_ne_nil d.nonempty
  exact ⟨c, cs, hcs, d.isDigit_of_mem c (by simp [hcs])⟩

theorem passExponent_spelling (e : Exponent) {rest : List Char} (h : Stops rest) :
    passExponent (e.sign ++ (e.digits.chars ++ rest)) = .ok rest := by
  obtain ⟨c, cs, hcs, hc⟩ := e.digits.eq_cons
  have hdrop := e.digits.dropWhile_append h.noDigit
  rw [hcs, List.cons_append] at hdrop ⊢
  rcases e.sign_eq with hsign | hsign | hsign
  · have hplus : c ≠ '+' := by
      rintro rfl
      exact absurd hc (by decide)
    have hminus : c ≠ '-' := by
      rintro rfl
      exact absurd hc (by decide)
    simp [hsign, passExponent, hc, hdrop, hplus, hminus]
  · simp [hsign, passExponent, hc, hdrop]
  · simp [hsign, passExponent, hc, hdrop]

theorem noDigit_exponentSpelling (e : Option Exponent) {rest : List Char} (h : Stops rest) :
    NoDigit (exponentSpelling e ++ rest) := by
  cases e with
  | none => exact h.noDigit
  | some e =>
    intro c hc
    obtain rfl : e.letter = c := by simpa [exponentSpelling] using hc
    rcases e.letter_eq with hletter | hletter <;> rw [hletter] <;> rfl

theorem NumberForm.noDigit_tail (n : NumberForm) {rest : List Char} (h : Stops rest) :
    NoDigit (n.tail ++ rest) := by
  unfold tail
  cases n.fraction with
  | none => exact noDigit_exponentSpelling n.exponent h
  | some d =>
    intro c hc
    obtain rfl : '.' = c := by simpa using hc
    rfl

theorem passFraction_spelling (d : Digits) (e : Option Exponent) {rest : List Char}
    (h : Stops rest) : passFraction (d.chars ++ (exponentSpelling e ++ rest)) = .ok rest := by
  obtain ⟨c, cs, hcs, hc⟩ := d.eq_cons
  have hdrop := d.dropWhile_append (noDigit_exponentSpelling e h)
  rw [hcs, List.cons_append] at hdrop ⊢
  simp only [passFraction, hc, hdrop, Bool.not_true, Bool.false_eq_true, if_false]
  cases e with
  | none =>
    cases rest with
    | nil => rfl
    | cons b rest =>
      obtain ⟨-, hsmall, hlarge⟩ := h.ne
      simp [exponentSpelling, hsmall, hlarge]
  | some e =>
    have hexponent := passExponent_spelling e h
    rcases e.letter_eq with hletter | hletter <;> simpa [exponentSpelling, hletter] using hexponent

/-- The digits before the point are taken, and what follows them is next. -/
theorem NumberForm.afterWhole (n : NumberForm) {c : Char} {cs rest : List Char}
    (hcs : n.whole.chars = c :: cs) (h : NoDigit rest) :
    (if c = '0' then ['0'] else (c :: (cs ++ rest)).takeWhile isDigit) = c :: cs ∧
      (if c = '0' then cs ++ rest else (c :: (cs ++ rest)).dropWhile isDigit) = rest := by
  have htake := n.whole.takeWhile_append h
  have hdrop := n.whole.dropWhile_append h
  rw [hcs, List.cons_append] at htake hdrop
  by_cases hzero : c = '0'
  · obtain rfl : cs = [] := by simpa [hcs, hzero] using n.zero
    simp [hzero]
  · simp [hzero, htake, hdrop]

theorem passUnsigned_spelling (n : NumberForm) {rest : List Char} (h : Stops rest) :
    passUnsigned (n.whole.chars ++ (n.tail ++ rest)) = .ok rest := by
  obtain ⟨c, cs, hcs, hc⟩ := n.whole.eq_cons
  have hnext := (n.afterWhole hcs (n.noDigit_tail h)).2
  rw [hcs, List.cons_append]
  simp only [passUnsigned, hc, hnext, Bool.not_true, Bool.false_eq_true, if_false]
  unfold NumberForm.tail
  cases n.fraction with
  | some d => simpa using passFraction_spelling d n.exponent h
  | none =>
    cases n.exponent with
    | some e =>
      have hexponent := passExponent_spelling e h
      rcases e.letter_eq with hletter | hletter <;>
        simpa [exponentSpelling, hletter] using hexponent
    | none =>
      cases rest with
      | nil => rfl
      | cons b rest =>
        obtain ⟨hpoint, hsmall, hlarge⟩ := h.ne
        simp [exponentSpelling, h.noDigit b rfl]

/-- A number is passed over up to where it stops. -/
theorem passNumber_spelling (n : NumberForm) {rest : List Char} (h : Stops rest) :
    passNumber (n.spelling ++ rest) = .ok rest := by
  have hunsigned := passUnsigned_spelling n h
  unfold NumberForm.spelling
  cases n.negative with
  | true => simpa [passNumber] using hunsigned
  | false =>
    obtain ⟨c, cs, hcs, hc⟩ := n.whole.eq_cons
    have hminus : c ≠ '-' := by
      rintro rfl
      exact absurd hc (by decide)
    rw [hcs] at hunsigned ⊢
    simpa [passNumber, hminus] using hunsigned

/-! ### Lists and objects -/

theorem passWithin_eq {around : List Container} {s rest : List Char} {c : Char}
    (htail : skipSpace s = c :: rest) :
    passWithin around s =
      match Container.ofOpening? c with
      | some k =>
        match passOpening k rest with
        | .error e => .error e
        | .ok (false, r) => passAround around r
        | .ok (true, r) => passWithin (k :: around) r
      | none =>
        match passScalar (c :: rest) with
        | .error e => .error e
        | .ok r => passAround around r := by
  rw [passWithin]
  split
  · next hnil =>
    rw [htail] at hnil
    cases hnil
  · next c' rest' htail' =>
    rw [htail] at htail'
    cases htail'
    cases Container.ofOpening? c with
    | some k =>
      simp only
      split <;> next h => simp only [h]
    | none =>
      simp only
      split <;> next h => simp only [h]

theorem passAround_cons (k : Container) (outer : List Container) (s : List Char) :
    passAround (k :: outer) s =
      match passItemEnd k s with
      | .error e => .error e
      | .ok (false, r) => passAround outer r
      | .ok (true, r) => passWithin (k :: outer) r := by
  rw [passAround]
  split <;> next h => simp only [h]

theorem passAround_nil (s : List Char) : passAround [] s = .ok s := by
  rw [passAround]

/-- Passing over the value goes on with what is around it, whatever that is. -/
def Passes (v : Value) : Prop :=
  ∀ (around : List Container) {ts : List (List Char)} {s : List Char}, Follows ts →
    Spaced (v.tokens ++ ts) s → ∃ r, passWithin around s = passAround around r ∧ Spaced ts r

/-- A value of one token is passed over if the token is. -/
theorem passes_scalar {v : Value} {c : Char} {cs : List Char} (hv : v.tokens = [c :: cs])
    (hc : isSpace c = false) (hopening : Container.ofOpening? c = none)
    (hpass : ∀ rest, Stops rest → passScalar (c :: (cs ++ rest)) = .ok rest) : Passes v := by
  intro around ts s hts hs
  rw [hv] at hs
  obtain ⟨r, hr, hts'⟩ := hs.next hc
  refine ⟨r, ?_, hts'⟩
  rw [passWithin_eq hr, hopening]
  simp only [hpass r (hts'.stops hts)]

theorem passes_null : Passes .null :=
  passes_scalar rfl rfl rfl fun _ _ => rfl

theorem passes_boolean (b : Bool) : Passes (.boolean b) := by
  cases b
  · exact passes_scalar (c := 'f') rfl rfl rfl fun _ _ => rfl
  · exact passes_scalar (c := 't') rfl rfl rfl fun _ _ => rfl

theorem passes_text (letters : List Letter) : Passes (.text letters) := by
  refine passes_scalar (c := '"') (by rw [Value.tokens]; rfl) rfl rfl fun rest _ => ?_
  rw [List.append_assoc]
  exact passText_letters letters rest

theorem passes_number (n : NumberForm) : Passes (.number n) := by
  obtain ⟨c, cs, hcs, hc⟩ := n.spelling_eq_cons
  have hopening : Container.ofOpening? c = none := by
    have hlist : c ≠ '[' := ne_of_number hc (by decide)
    have hobject : c ≠ '\x7b' := ne_of_number hc (by decide)
    simp [Container.ofOpening?, hlist, hobject]
  refine passes_scalar (by rw [Value.tokens, hcs]) (isSpace_of_number hc) hopening
    fun rest hrest => ?_
  have hnumber := passNumber_spelling n hrest
  rw [hcs, List.cons_append] at hnumber
  rw [passScalar]
  · simp [hc, hnumber]
  all_goals exact ne_of_number hc (by decide)

/-- A key is passed over with the colon behind it. -/
theorem passKey_quoted {letters : List Letter} {ts : List (List Char)} {s : List Char}
    (h : Spaced (quoted letters :: [':'] :: ts) s) :
    ∃ r, passKey s = .ok r ∧ Spaced ts r := by
  obtain ⟨r, hr, hts⟩ := h.next rfl
  obtain ⟨r', hr', hts'⟩ := hts.after rfl
  refine ⟨r', ?_, hts'⟩
  rw [passKey, hr, List.append_assoc]
  simp only [List.cons_append, List.nil_append, passText_letters, hr']

theorem passAround_items {items : List Value} (hitems : ∀ v ∈ items, Passes v)
    (around : List Container) {ts : List (List Char)} {s : List Char}
    (h : Spaced (itemTokens false items ++ ts) s) :
    ∃ r, passAround (.list :: around) s = passAround around r ∧ Spaced ts r := by
  induction items generalizing s with
  | nil =>
    obtain ⟨r, hr, hts⟩ := h.after rfl
    refine ⟨r, ?_, hts⟩
    rw [passAround_cons, passItemEnd, hr]
    rfl
  | cons v items ih =>
    obtain ⟨hv, hitems⟩ := List.forall_mem_cons.mp hitems
    rw [itemTokens, comma, List.append_assoc, List.append_assoc] at h
    obtain ⟨r, hr, hvalue⟩ := h.after rfl
    obtain ⟨r', hpass, hrest⟩ := hv (.list :: around) (follows_itemTokens items ts) hvalue
    obtain ⟨r'', hend, hts⟩ := ih hitems hrest
    refine ⟨r'', ?_, hts⟩
    rw [← hend, ← hpass, passAround_cons, passItemEnd, hr]
    rfl

theorem passAround_members {members : List Member} (hmembers : ∀ m ∈ members, Passes m.2)
    (around : List Container) {ts : List (List Char)} {s : List Char}
    (h : Spaced (memberTokens false members ++ ts) s) :
    ∃ r, passAround (.object :: around) s = passAround around r ∧ Spaced ts r := by
  induction members generalizing s with
  | nil =>
    obtain ⟨r, hr, hts⟩ := h.after rfl
    refine ⟨r, ?_, hts⟩
    rw [passAround_cons, passItemEnd, hr]
    rfl
  | cons m members ih =>
    obtain ⟨hm, hmembers⟩ := List.forall_mem_cons.mp hmembers
    rw [memberTokens, comma, List.append_assoc, List.append_assoc, keyedTokens] at h
    obtain ⟨r, hr, hkeyed⟩ := h.after rfl
    obtain ⟨r₁, hkey, hvalue⟩ := passKey_quoted hkeyed
    obtain ⟨r₂, hpass, hrest⟩ := hm (.object :: around) (follows_memberTokens members ts) hvalue
    obtain ⟨r₃, hend, hts⟩ := ih hmembers hrest
    refine ⟨r₃, ?_, hts⟩
    rw [← hend, ← hpass, passAround_cons, passItemEnd, hr]
    simp only [Container.closing, Char.reduceEq, if_false, if_true, hkey, Except.map]

theorem passes_list {items : List Value} (hitems : ∀ v ∈ items, Passes v) :
    Passes (.list items) := by
  intro around ts s _ hs
  rw [Value.tokens, List.cons_append] at hs
  obtain ⟨r, hr, hrest⟩ := hs.after rfl
  rw [passWithin_eq hr]
  simp only [show Container.ofOpening? '[' = some .list from rfl, passOpening]
  cases items with
  | nil =>
    obtain ⟨r', hr', hts⟩ := hrest.after rfl
    exact ⟨r', by rw [hr']; rfl, hts⟩
  | cons v items =>
    obtain ⟨hv, hitems⟩ := List.forall_mem_cons.mp hitems
    rw [itemTokens, comma, List.append_assoc, List.append_assoc] at hrest
    obtain ⟨c, r', hr', hc, hvalue⟩ := hrest.value
    obtain ⟨r₁, hpass, hrest⟩ := hv (.list :: around) (follows_itemTokens items ts) hvalue
    obtain ⟨r₂, hend, hts⟩ := passAround_items hitems around hrest
    refine ⟨r₂, ?_, hts⟩
    rw [hr']
    simp only [Container.closing, hc.ne (show ']' ∈ _ by simp), if_false]
    rw [hpass, hend]

theorem passes_object {members : List Member} (hmembers : ∀ m ∈ members, Passes m.2) :
    Passes (.object members) := by
  intro around ts s _ hs
  rw [Value.tokens, List.cons_append] at hs
  obtain ⟨r, hr, hrest⟩ := hs.after rfl
  rw [passWithin_eq hr]
  simp only [show Container.ofOpening? '\x7b' = some .object from rfl, passOpening]
  cases members with
  | nil =>
    obtain ⟨r', hr', hts⟩ := hrest.after rfl
    exact ⟨r', by rw [hr']; rfl, hts⟩
  | cons m members =>
    obtain ⟨hm, hmembers⟩ := List.forall_mem_cons.mp hmembers
    rw [memberTokens, comma, List.append_assoc, List.append_assoc, keyedTokens] at hrest
    obtain ⟨r', hr', hkeyed⟩ := hrest.here rfl
    obtain ⟨r₁, hkey, hvalue⟩ := passKey_quoted hkeyed
    obtain ⟨r₂, hpass, hrest⟩ := hm (.object :: around) (follows_memberTokens members ts) hvalue
    obtain ⟨r₃, hend, hts⟩ := passAround_members hmembers around hrest
    refine ⟨r₃, ?_, hts⟩
    rw [hr']
    simp only [Container.closing, Char.reduceEq, if_false, hkey, Except.map]
    rw [hpass, hend]

/-- Every value is passed over. -/
theorem passes (v : Value) : Passes v := by
  induction v using Value.inductionOn with
  | null => exact passes_null
  | boolean b => exact passes_boolean b
  | number n => exact passes_number n
  | text letters => exact passes_text letters
  | list items ih => exact passes_list ih
  | object members ih => exact passes_object ih

/-- What is passed over is the value alone. -/
theorem passValue_spelling (v : Value) {ts : List (List Char)} {s : List Char} (hts : Follows ts)
    (h : Spaced (v.tokens ++ ts) s) : ∃ r, passValue s = .ok r ∧ Spaced ts r := by
  obtain ⟨r, hpass, hr⟩ := passes v [] hts h
  exact ⟨r, hpass.trans (passAround_nil r), hr⟩

end LayoutCompiler.Json
