import LayoutCompiler.Proofs.Text.Blank
import LayoutCompiler.Text.Hexadecimal
import Mathlib.Algebra.Group.Nat.Defs
import Mathlib.Data.List.Basic
import Mathlib.Data.Nat.Digits.Lemmas

/-
Hexadecimal numbers. A number is read if and only if all its characters are digits in
either letter case, and it is the sum of their values, each times the power of sixteen
of its place (`hexNumber?_eq`). Padded digits are read as the number they were written
for (`hexNumber?_hexPadded`). Neither digits nor blanks depend on letter case.
-/

namespace LayoutCompiler.Text

/-! ### Digits in either letter case -/

/-- The sixteen hexadecimal digits in the order of their values. -/
def hexAlphabet : List Char :=
  ['0', '1', '2', '3', '4', '5', '6', '7', '8', '9', 'a', 'b', 'c', 'd', 'e', 'f']

/-- ASCII hexadecimal digits, in either letter case. -/
def IsHexDigit (c : Char) : Prop :=
  c.toLower ∈ hexAlphabet

instance (c : Char) : Decidable (IsHexDigit c) :=
  inferInstanceAs (Decidable (c.toLower ∈ hexAlphabet))

/-- The number that digits stand for: the sum of their values, each times the power of sixteen of
its place. -/
def hexValue (cs : List Char) : Nat :=
  Nat.ofDigits 16 (cs.reverse.map fun c => hexAlphabet.idxOf c.toLower)

/-- What holds of the ASCII characters and of all others holds of every character. -/
theorem forall_char {P : Char → Prop} (hascii : ∀ n < 128, P (Char.ofNat n))
    (hother : ∀ c : Char, 128 ≤ c.toNat → P c) (c : Char) : P c := by
  by_cases h : c.toNat < 128
  · rw [← Char.ofNat_toNat c]
    exact hascii c.toNat h
  · exact hother c (Nat.le_of_not_lt h)

/-- Beyond ASCII there is no letter case. -/
theorem toLower_of_le {c : Char} (h : 128 ≤ c.toNat) : c.toLower = c := by
  refine dif_neg fun hupper => ?_
  have hz : c.toNat ≤ 90 := UInt32.le_iff_toNat_le.mp hupper.2
  omega

theorem digitValue?_eq (c : Char) :
    digitValue? c = if IsHexDigit c then some (hexAlphabet.idxOf c.toLower) else none := by
  induction c using forall_char with
  | hascii n h =>
    exact (by decide : ∀ n < 128, digitValue? (Char.ofNat n) =
      if IsHexDigit (Char.ofNat n) then some (hexAlphabet.idxOf (Char.ofNat n).toLower)
      else none) n h
  | hother c h =>
    have hdigit : ¬IsHexDigit c := by
      rw [IsHexDigit, toLower_of_le h]
      intro hmem
      have hlt := (by simp [hexAlphabet] : ∀ d ∈ hexAlphabet, d.toNat < 128) c hmem
      omega
    have hbeyond {d : Char} (hd : d.toNat < 128) : ¬c ≤ d := by
      intro hle
      have hle : c.toNat ≤ d.toNat := UInt32.le_iff_toNat_le.mp hle
      omega
    rw [if_neg hdigit, digitValue?, if_neg, if_neg, if_neg]
    all_goals exact fun hle => hbeyond (by decide) hle.2

theorem digitValue?_hexDigit : ∀ n < 16, digitValue? (hexDigit n) = some n := by
  decide

/-! ### Numbers -/

/-- The values of digits, each from its place in the alphabet. -/
theorem mapM_digitValue?_of_digits {cs : List Char} (h : ∀ c ∈ cs, IsHexDigit c) :
    cs.mapM digitValue? = some (cs.map fun c => hexAlphabet.idxOf c.toLower) := by
  induction cs with
  | nil => rfl
  | cons c cs ih =>
    obtain ⟨hc, hcs⟩ := List.forall_mem_cons.mp h
    rw [List.mapM_cons, digitValue?_eq, if_pos hc, ih hcs]
    rfl

theorem mapM_digitValue?_of_not_digit {cs : List Char} {c : Char} (hmem : c ∈ cs)
    (hc : ¬IsHexDigit c) : cs.mapM digitValue? = none := by
  induction cs with
  | nil => cases hmem
  | cons d cs ih =>
    rw [List.mapM_cons]
    rcases List.mem_cons.mp hmem with rfl | hmem
    · rw [digitValue?_eq, if_neg hc]
      rfl
    · rw [ih hmem]
      cases digitValue? d <;> rfl

theorem ofDigitValues_eq (ds : List Nat) : ofDigitValues ds = Nat.ofDigits 16 ds.reverse := by
  rw [Nat.ofDigits_eq_foldr, List.foldr_reverse, ofDigitValues]
  congr 1
  funext n d
  exact Nat.add_comm _ _

theorem ofDigitValues_map (cs : List Char) :
    ofDigitValues (cs.map fun c => hexAlphabet.idxOf c.toLower) = hexValue cs := by
  rw [ofDigitValues_eq, hexValue, List.map_reverse]

/-- The number that is read is the one that the digits stand for. -/
theorem hexNumber?_eq {cs : List Char} (h : ∀ c ∈ cs, IsHexDigit c) :
    hexNumber? cs = some (hexValue cs) := by
  rw [hexNumber?, mapM_digitValue?_of_digits h, Option.map_some, ofDigitValues_map]

theorem hexValue_lt {cs : List Char} (h : ∀ c ∈ cs, IsHexDigit c) :
    hexValue cs < 16 ^ cs.length := by
  have hlt : ∀ d ∈ cs.reverse.map fun c => hexAlphabet.idxOf c.toLower, d < 16 := by
    intro d hd
    obtain ⟨c, hc, rfl⟩ := List.mem_map.mp hd
    exact List.idxOf_lt_length_of_mem (h c (List.mem_reverse.mp hc))
  simpa [hexValue] using Nat.ofDigits_lt_base_pow_length (by decide) hlt

theorem hexValue_append (front back : List Char) :
    hexValue (front ++ back) = 16 ^ back.length * hexValue front + hexValue back := by
  rw [hexValue, List.reverse_append, List.map_append, Nat.ofDigits_append, List.length_map,
    List.length_reverse, Nat.add_comm, ← hexValue, ← hexValue]

/-! ### Padded digits -/

theorem length_hexPadded (w n : Nat) : (hexPadded w n).length = w := by
  induction w generalizing n with
  | zero => rfl
  | succ w ih => rw [hexPadded, List.length_append, ih, List.length_singleton]

theorem exists_of_mem_hexPadded {w n : Nat} {c : Char} (h : c ∈ hexPadded w n) :
    ∃ d < 16, c = hexDigit d := by
  induction w generalizing n with
  | zero => exact absurd h List.not_mem_nil
  | succ w ih =>
    rcases List.mem_append.mp h with h | h
    · exact ih h
    · exact ⟨n % 16, Nat.mod_lt n (by decide), List.mem_singleton.mp h⟩

theorem ofDigitValues_append (ds : List Nat) (d : Nat) :
    ofDigitValues (ds ++ [d]) = 16 * ofDigitValues ds + d := by
  rw [ofDigitValues, List.foldl_append]
  rfl

theorem mapM_hexPadded (w n : Nat) :
    ∃ ds, (hexPadded w n).mapM digitValue? = some ds ∧ ofDigitValues ds = n % 16 ^ w := by
  induction w generalizing n with
  | zero => exact ⟨[], rfl, (Nat.mod_one n).symm⟩
  | succ w ih =>
    obtain ⟨ds, hds, hvalue⟩ := ih (n / 16)
    have hlast := digitValue?_hexDigit (n % 16) (Nat.mod_lt n (by decide))
    refine ⟨ds ++ [n % 16], ?_, ?_⟩
    · rw [hexPadded, List.mapM_append, hds]
      simp [hlast]
    · rw [ofDigitValues_append, hvalue, Nat.pow_succ', Nat.mod_mul, Nat.add_comm]

/-- A number that fits the width is read from its padded digits. -/
theorem hexNumber?_hexPadded {w n : Nat} (h : n < 16 ^ w) :
    hexNumber? (hexPadded w n) = some n := by
  obtain ⟨ds, hds, hvalue⟩ := mapM_hexPadded w n
  rw [hexNumber?, hds, Option.map_some, hvalue, Nat.mod_eq_of_lt h]

/-! ### Letter case -/

/-- Texts that differ at most in the case of ASCII letters. -/
def SameLetters (cs cs' : List Char) : Prop :=
  cs.map Char.toLower = cs'.map Char.toLower

theorem isBlank_toLower (c : Char) : isBlank c.toLower = isBlank c := by
  induction c using forall_char with
  | hascii n h =>
    exact (by decide : ∀ n < 128, isBlank (Char.ofNat n).toLower = isBlank (Char.ofNat n)) n h
  | hother c h => rw [toLower_of_le h]

theorem toLower_toLower (c : Char) : c.toLower.toLower = c.toLower := by
  induction c using forall_char with
  | hascii n h =>
    exact (by decide : ∀ n < 128,
      (Char.ofNat n).toLower.toLower = (Char.ofNat n).toLower) n h
  | hother c h => rw [toLower_of_le h, toLower_of_le h]

theorem isHexDigit_toLower (c : Char) : IsHexDigit c.toLower ↔ IsHexDigit c := by
  unfold IsHexDigit
  rw [toLower_toLower]

theorem digitValue?_toLower (c : Char) : digitValue? c.toLower = digitValue? c := by
  simp only [digitValue?_eq, isHexDigit_toLower, toLower_toLower]

theorem isBlank_of_isHexDigit {c : Char} (h : IsHexDigit c) : isBlank c = false := by
  rw [← isBlank_toLower]
  exact (by simp [hexAlphabet, isBlank, blankRanges] : ∀ d ∈ hexAlphabet, isBlank d = false) _ h

theorem trim_map_toLower (cs : List Char) :
    trim (cs.map Char.toLower) = (trim cs).map Char.toLower := by
  have hblank : isBlank ∘ Char.toLower = isBlank := funext isBlank_toLower
  simp only [trim, List.dropWhile_map, ← List.map_reverse, hblank]

namespace SameLetters

variable {cs cs' : List Char}

theorem trim (h : SameLetters cs cs') : SameLetters (trim cs) (Text.trim cs') := by
  rw [SameLetters, ← trim_map_toLower, ← trim_map_toLower, h]

/-- The values of digits do not depend on their case. -/
theorem mapM_digitValue? (h : SameLetters cs cs') :
    cs.mapM digitValue? = cs'.mapM digitValue? := by
  have hlower (cs : List Char) :
      (cs.map Char.toLower).mapM digitValue? = cs.mapM digitValue? := by
    rw [List.mapM_map, (funext digitValue?_toLower : digitValue? ∘ Char.toLower = digitValue?)]
  rw [← hlower cs, ← hlower cs', h]

end SameLetters

end LayoutCompiler.Text
