import LayoutCompiler.Json.Ignored
import LayoutCompiler.Json.Printer
import LayoutCompiler.Proofs.Text.Hexadecimal

/-
Texts and integers are read as they are printed. A printed character is one escape or
stands for itself (`scanText_escaped`), so a printed text is read up to its closing
quote (`scanText_printed`). The digits of an integer end where what follows does not go
on with a number (`numeral_printInt`).
-/

namespace LayoutCompiler.Json

open Number (isDigit)
open Text (hexNumber? hexNumber?_hexPadded hexPadded)

/-! ### Texts -/

/-- Four digits are read as the number they stand for. -/
theorem hex4_append {digits : List Char} {n : Nat} (hfour : digits.length = 4)
    (hread : hexNumber? digits = some n) (rest : List Char) :
    hex4 (digits ++ rest) = .ok (n, rest) := by
  match digits, hfour with
  | [a, b, c, d], _ =>
    simp only [List.cons_append, List.nil_append]
    rw [hex4, hread]

theorem hex4_hexPadded {n : Nat} (h : n < 16 ^ 4) (rest : List Char) :
    hex4 (hexPadded 4 n ++ rest) = .ok (n, rest) :=
  hex4_append rfl (hexNumber?_hexPadded h) rest

theorem scanText_escape {acc s rest : List Char} {c : Char} (h : escape s = .ok (c, rest)) :
    scanText acc ('\\' :: s) = scanText (c :: acc) rest := by
  rw [scanText]
  split
  · next e he =>
    rw [h] at he
    cases he
  · next c' rest' he =>
    rw [h] at he
    cases he
    rfl

theorem scanText_plain {acc rest : List Char} {c : Char} (hquote : c ≠ '"') (hslash : c ≠ '\\')
    (hcontrol : ¬ c.toNat < 0x20) : scanText acc (c :: rest) = scanText (c :: acc) rest := by
  rw [scanText]
  · simp [isControl, hcontrol]
  · exact hquote
  · exact hslash

theorem escape_control {c : Char} (h : c.toNat < 0x20) (rest : List Char) :
    escape ('u' :: (hexPadded 4 c.toNat ++ rest)) = .ok (c, rest) := by
  have hleading : isLeadingSurrogate c.toNat = false := by
    simp [isLeadingSurrogate]
    omega
  have htrailing : isTrailingSurrogate c.toNat = false := by
    simp [isTrailingSurrogate]
    omega
  rw [escape, hex4_hexPadded (by omega)]
  simp [hleading, htrailing]

/-- One printed character is read as that character. -/
theorem scanText_escaped (acc rest : List Char) (c : Char) :
    scanText acc (escaped c ++ rest) = scanText (c :: acc) rest := by
  unfold escaped
  split
  case h_8 hquote hslash _ _ _ _ _ =>
    split
    case isTrue hcontrol => exact scanText_escape (escape_control hcontrol rest)
    case isFalse hcontrol => exact scanText_plain hquote hslash hcontrol
  all_goals exact scanText_escape rfl

/-- A printed text is read up to its closing quote. -/
theorem scanText_printed (acc cs rest : List Char) :
    scanText acc (cs.flatMap escaped ++ '"' :: rest) =
      .ok (String.ofList (acc.reverse ++ cs), rest) := by
  induction cs generalizing acc with
  | nil =>
    rw [List.append_nil]
    simp [scanText]
  | cons c cs ih =>
    rw [List.flatMap_cons, List.append_assoc, scanText_escaped, ih, List.reverse_cons,
      List.append_assoc]
    rfl

/-! ### Integers -/

/-- What may follow a printed value: nothing, a comma or a closing bracket. -/
def Ended (rest : List Char) : Prop :=
  ∀ c ∈ rest.head?, c = ',' ∨ c = ']' ∨ c = '\x7d'

theorem isDigit_of_mem_toDigits {n : Nat} {c : Char} (h : c ∈ Nat.toDigits 10 n) :
    isDigit c = true := by
  have hdigit := Nat.isDigit_of_mem_toDigits (by decide) (by decide) h
  simpa [Char.isDigit, isDigit, Char.le_def, UInt32.le_iff_toNat_le] using hdigit

/-- Only zero is printed with a leading zero. -/
theorem toDigits_eq_cons {n : Nat} (h : n ≠ 0) :
    ∃ c cs, Nat.toDigits 10 n = c :: cs ∧ c ≠ '0' := by
  induction n using Nat.strongRecOn with
  | ind n ih =>
    by_cases hn : n < 10
    · have hne : ∀ m < 10, m ≠ 0 → m.digitChar ≠ '0' := by decide
      exact ⟨_, _, Nat.toDigits_of_lt_base hn, hne n hn h⟩
    · obtain ⟨c, cs, hcs, hc⟩ := ih (n / 10) (by omega) (by omega)
      rw [Nat.toDigits_of_base_le (by decide) (by omega), hcs]
      exact ⟨c, cs ++ [(n % 10).digitChar], rfl, hc⟩

/-- The digits of a word are kept, every one of them. -/
theorem ofWhole_toDigits {n : Nat} (h : n ≤ maxWord) :
    Significand.ofWhole (Nat.toDigits 10 n) = ⟨n, 0⟩ := by
  induction n using Nat.strongRecOn with
  | ind n ih =>
    by_cases hn : n < 10
    · rw [Nat.toDigits_of_lt_base hn]
      have hdigit := Nat.toNat_digitChar_sub_48_of_lt_ten hn
      simp [Significand.ofWhole, hdigit, h]
    · have hlast : n % 10 < 10 := Nat.mod_lt n (by decide)
      have hdigit := Nat.toNat_digitChar_sub_48_of_lt_ten hlast
      have hfront := ih (n / 10) (by omega) (by omega)
      have hvalue : 10 * (n / 10) + n % 10 = n := Nat.div_add_mod n 10
      rw [Nat.toDigits_of_base_le (by decide) (by omega)]
      unfold Significand.ofWhole at hfront ⊢
      rw [List.foldl_append, hfront]
      simp [hdigit, hvalue, h]

/-- The text does not go on with a digit. -/
def NoDigit (s : List Char) : Prop :=
  ∀ c ∈ s.head?, isDigit c = false

theorem Ended.noDigit {rest : List Char} (h : Ended rest) : NoDigit rest := by
  intro c hc
  rcases h c hc with rfl | rfl | rfl <;> rfl

theorem takeWhile_isDigit {rest : List Char} (h : NoDigit rest) : rest.takeWhile isDigit = [] := by
  cases rest with
  | nil => rfl
  | cons c rest => exact List.takeWhile_cons_of_neg (by simp [h c rfl])

theorem dropWhile_isDigit {rest : List Char} (h : NoDigit rest) :
    rest.dropWhile isDigit = rest := by
  cases rest with
  | nil => rfl
  | cons c rest => exact List.dropWhile_cons_of_neg (by simp [h c rfl])

/-- Printed digits are a number without point and exponent. -/
theorem unsignedNumeral_toDigits {negative : Bool} {n : Nat} (hn : n ≤ maxWord)
    {rest : List Char} (hrest : Ended rest) :
    unsignedNumeral negative (Nat.toDigits 10 n ++ rest) =
      (⟨n, 0⟩ : Significand).whole negative rest := by
  have hwhole := ofWhole_toDigits hn
  have htake : (Nat.toDigits 10 n ++ rest).takeWhile isDigit = Nat.toDigits 10 n := by
    rw [List.takeWhile_append_of_pos fun _ => isDigit_of_mem_toDigits,
      takeWhile_isDigit hrest.noDigit, List.append_nil]
  have hdrop : (Nat.toDigits 10 n ++ rest).dropWhile isDigit = rest := by
    rw [List.dropWhile_append_of_pos fun _ => isDigit_of_mem_toDigits,
      dropWhile_isDigit hrest.noDigit]
  by_cases hzero : n = 0
  · subst hzero
    have hdigit : isDigit '0' = true := by decide
    rw [Nat.toDigits_zero] at hwhole ⊢
    simp only [unsignedNumeral, List.cons_append, List.nil_append, if_true, hdigit, hwhole]
    cases rest with
    | nil => simp
    | cons d rest => rcases hrest d rfl with rfl | rfl | rfl <;> simp [isDigit]
  · obtain ⟨c, cs, hcs, hc⟩ := toDigits_eq_cons hzero
    have hdigit : isDigit c = true := isDigit_of_mem_toDigits (n := n) (by simp [hcs])
    rw [hcs] at hwhole htake hdrop ⊢
    rw [List.cons_append] at htake hdrop ⊢
    simp only [unsignedNumeral, hc, if_false, htake, hdrop, hdigit, hwhole]
    cases rest with
    | nil => simp
    | cons d rest => rcases hrest d rfl with rfl | rfl | rfl <;> simp

theorem printInt_ofNat (n : Nat) : printInt (.ofNat n) = Nat.toDigits 10 n := by
  rw [printInt, Int.toString_eq_repr]
  exact Nat.toList_repr

theorem printInt_negSucc (n : Nat) : printInt (.negSucc n) = '-' :: Nat.toDigits 10 (n + 1) := by
  rw [printInt, Int.toString_eq_repr, Int.repr_eq_if, if_neg (by omega), String.toList_append]
  exact congrArg ('-' :: ·) Nat.toList_repr

/-- An integer is printed as a minus or a digit and what goes on with it. -/
theorem printInt_eq_cons (i : Int) : ∃ c cs, printInt i = c :: cs ∧ (c = '-' ∨ isDigit c) := by
  cases i with
  | ofNat n =>
    obtain ⟨c, cs, hcs⟩ := List.exists_cons_of_ne_nil (Nat.toDigits_ne_nil (n := n) (b := 10))
    have hdigit : isDigit c = true := isDigit_of_mem_toDigits (n := n) (by simp [hcs])
    exact ⟨c, cs, (printInt_ofNat n).trans hcs, .inr hdigit⟩
  | negSucc n => exact ⟨'-', _, printInt_negSucc n, .inl rfl⟩

/-- A word of 64 bits, signed or not, is read as it is printed. -/
theorem numeral_printInt {i : Int} (hi : -0x8000000000000000 ≤ i ∧ i ≤ maxWord)
    {rest : List Char} (hrest : Ended rest) :
    numeral (printInt i ++ rest) = .ok (.integer i, rest) := by
  cases i with
  | ofNat n =>
    have hn : n ≤ maxWord := Int.ofNat_le.mp hi.2
    obtain ⟨c, cs, hcs⟩ := List.exists_cons_of_ne_nil (Nat.toDigits_ne_nil (n := n) (b := 10))
    have hdigit : isDigit c = true := isDigit_of_mem_toDigits (n := n) (by simp [hcs])
    have hminus : c ≠ '-' := by
      rintro rfl
      exact absurd hdigit (by decide)
    have hunsigned : numeral (Nat.toDigits 10 n ++ rest) =
        unsignedNumeral false (Nat.toDigits 10 n ++ rest) := by
      rw [hcs, List.cons_append, numeral]
      intro _ h
      exact hminus (List.cons.inj h).1
    rw [printInt_ofNat, hunsigned, unsignedNumeral_toDigits hn hrest]
    simp [Significand.whole]
  | negSucc n =>
    have hn : n + 1 ≤ maxWord := by
      unfold maxWord
      omega
    have hlow : ¬ 0x8000000000000000 < n + 1 := by omega
    rw [printInt_negSucc, List.cons_append, numeral, unsignedNumeral_toDigits hn hrest]
    simp [Significand.whole, hlow, Int.negSucc_eq]

end LayoutCompiler.Json
