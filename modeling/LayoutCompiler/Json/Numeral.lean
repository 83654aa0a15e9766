import LayoutCompiler.Json.Failure
import LayoutCompiler.Number.Literal

/-
Numbers in JSON. A number without point and exponent is an integer as long as it
fits a word of 64 bits, signed if it is negative; minus zero and everything else
is a fraction. A fraction keeps the first digits that fit an unsigned word of 64
bits and multiplies or divides them by a power of ten, in the 64-bit binary
format, so it can be off by a rounding or two. A fraction that overflows is
refused.

Passing over a number checks its form alone.
-/

namespace LayoutCompiler.Json

open Number (isDigit ofDigits binary64)

/-- The value of a JSON number. -/
inductive Numeral where
  | integer (n : Int)
  /-- A sign and the pattern of the magnitude in the 64-bit format. -/
  | fraction (negative : Bool) (pattern : Nat)
  deriving DecidableEq, Repr

/-- What a number that was not wanted is called. -/
def Numeral.found : Numeral → Found
  | integer n => .integer n
  | fraction negative pattern => .fraction negative pattern

/-- The largest unsigned word of 64 bits. -/
def maxWord : Nat := 0xFFFFFFFFFFFFFFFF

/-- The digits of a number that have been kept, and the power of ten they are to be multiplied
with. -/
structure Significand where
  kept : Nat
  exponent : Int
  deriving DecidableEq, Repr

/-- Adds the digits before the point. From the first one on that does not fit, digits only count. -/
def Significand.ofWhole (digits : List Char) : Significand :=
  digits.foldl
    (fun s c =>
      let next := 10 * s.kept + (c.toNat - '0'.toNat)
      if s.exponent = 0 ∧ next ≤ maxWord then ⟨next, 0⟩ else ⟨s.kept, s.exponent + 1⟩)
    ⟨0, 0⟩

/-- Adds the digits after the point, up to the first one that does not fit. -/
def Significand.addFraction (s : Significand) : List Char → Significand
  | [] => s
  | c :: cs =>
    let next := 10 * s.kept + (c.toNat - '0'.toNat)
    if next ≤ maxWord then addFraction ⟨next, s.exponent - 1⟩ cs else s

/-- A pattern divided by a power of ten, in steps of at most the largest power that the format
has. -/
def shrink (pattern exponent : Nat) : Nat :=
  if pattern = 0 then 0
  else if h : exponent ≤ 308 then binary64.div pattern (binary64.ofNat (Nat.pow 10 exponent))
  else shrink (binary64.div pattern (binary64.ofNat (Nat.pow 10 308))) (exponent - 308)
termination_by exponent

/-- The pattern of a significand, or `none` if it overflows. -/
def Significand.pattern? (s : Significand) : Option Nat :=
  let kept := binary64.ofNat s.kept
  if s.exponent < 0 then some (shrink kept s.exponent.natAbs)
  else if s.exponent ≤ 308 then
    let product := binary64.mul kept (binary64.ofNat (Nat.pow 10 s.exponent.toNat))
    if product = binary64.infinity then none else some product
  else if kept = 0 then some 0
  else none

/-- The fraction with the given sign and significand, read up to `rest`. -/
def Significand.numeral (s : Significand) (negative : Bool) (rest : List Char) :
    Except Failure (Numeral × List Char) :=
  match s.pattern? with
  | some pattern => .ok (.fraction negative pattern, rest)
  | none => .error (.before .numberOutOfRange rest)

/-- The largest exponent that is taken at its value. -/
def maxExponent : Nat := 0x7FFFFFFF

/-- The text after the first digit at which the exponent `e` grows too large, if there is one. -/
def pastLargeExponent? (e : Nat) : List Char → Option (List Char)
  | [] => none
  | c :: cs =>
    let next := 10 * e + (c.toNat - '0'.toNat)
    if isDigit c then if maxExponent < next then some cs else pastLargeExponent? next cs
    else none

/-- Reads what follows the letter of an exponent. An exponent too large to be taken at its value
makes the number zero if it is negative or if the significand is zero. -/
def exponent (s : Significand) (negative : Bool) (cs : List Char) :
    Except Failure (Numeral × List Char) :=
  let (down, digits) := Number.splitSign cs
  match digits with
  | [] => .error (.before .endInValue [])
  | c :: _ =>
    if !isDigit c then .error (.inside .invalidNumber digits)
    else
      let rest := digits.dropWhile isDigit
      match pastLargeExponent? 0 digits with
      | some r =>
        if s.kept ≠ 0 ∧ !down then .error (.before .numberOutOfRange r)
        else .ok (.fraction negative 0, rest)
      | none =>
        let e := ofDigits (digits.takeWhile isDigit)
        let shifted : Significand := ⟨s.kept, if down then s.exponent - e else s.exponent + e⟩
        shifted.numeral negative rest

/-- Reads what follows a decimal point. -/
def fraction (s : Significand) (negative : Bool) (cs : List Char) :
    Except Failure (Numeral × List Char) :=
  match cs with
  | [] => .error (.before .endInValue [])
  | c :: _ =>
    if !isDigit c then .error (.inside .invalidNumber cs)
    else
      let extended := s.addFraction (cs.takeWhile isDigit)
      match cs.dropWhile isDigit with
      | 'e' :: r => exponent extended negative r
      | 'E' :: r => exponent extended negative r
      | r => extended.numeral negative r

/-- The number without point and exponent that has the given significand. -/
def Significand.whole (s : Significand) (negative : Bool) (rest : List Char) :
    Except Failure (Numeral × List Char) :=
  if s.exponent ≠ 0 then s.numeral negative rest
  else if !negative then .ok (.integer s.kept, rest)
  else if s.kept = 0 ∨ 0x8000000000000000 < s.kept then
    .ok (.fraction true (binary64.ofNat s.kept), rest)
  else .ok (.integer (-s.kept), rest)

/-- Reads a number from its first digit on. -/
def unsignedNumeral (negative : Bool) : List Char → Except Failure (Numeral × List Char)
  | [] => .error (.before .endInValue [])
  | c :: cs =>
    let digits := if c = '0' then ['0'] else (c :: cs).takeWhile isDigit
    let rest := if c = '0' then cs else (c :: cs).dropWhile isDigit
    if !isDigit c then .error (.inside .invalidNumber (c :: cs))
    else
      let s := Significand.ofWhole digits
      match rest with
      | '.' :: r => fraction s negative r
      | 'e' :: r => exponent s negative r
      | 'E' :: r => exponent s negative r
      | d :: r =>
        if c = '0' ∧ isDigit d then .error (.inside .invalidNumber (d :: r))
        else s.whole negative (d :: r)
      | [] => s.whole negative []

/-- Reads a number; the text starts with a minus or a digit. -/
def numeral : List Char → Except Failure (Numeral × List Char)
  | '-' :: cs => unsignedNumeral true cs
  | cs => unsignedNumeral false cs

/-- Passes over what follows the letter of an exponent. -/
def passExponent (cs : List Char) : Except Failure (List Char) :=
  let digits := match cs with
    | '+' :: r => r
    | '-' :: r => r
    | r => r
  match digits with
  | [] => .error (.before .invalidNumber [])
  | c :: _ =>
    if isDigit c then .ok (digits.dropWhile isDigit)
    else .error (.inside .invalidNumber digits)

/-- Passes over what follows a decimal point. -/
def passFraction (cs : List Char) : Except Failure (List Char) :=
  match cs with
  | [] => .error (.before .invalidNumber [])
  | c :: _ =>
    if !isDigit c then .error (.inside .invalidNumber cs)
    else
      match cs.dropWhile isDigit with
      | 'e' :: r => passExponent r
      | 'E' :: r => passExponent r
      | r => .ok r

/-- Passes over a number from its first digit on. -/
def passUnsigned : List Char → Except Failure (List Char)
  | [] => .error (.before .invalidNumber [])
  | c :: cs =>
    let rest := if c = '0' then cs else (c :: cs).dropWhile isDigit
    if !isDigit c then .error (.inside .invalidNumber (c :: cs))
    else
      match rest with
      | '.' :: r => passFraction r
      | 'e' :: r => passExponent r
      | 'E' :: r => passExponent r
      | d :: r =>
        if c = '0' ∧ isDigit d then .error (.inside .invalidNumber (d :: r)) else .ok (d :: r)
      | [] => .ok []

/-- Passes over a number; the text starts with a minus or a digit. -/
def passNumber : List Char → Except Failure (List Char)
  | '-' :: cs => passUnsigned cs
  | cs => passUnsigned cs

/-! ### Both move forward -/

theorem length_dropWhile_le (p : Char → Bool) (cs : List Char) :
    (cs.dropWhile p).length ≤ cs.length :=
  (List.dropWhile_sublist p).length_le

theorem Significand.numeral_rest {s : Significand} {negative : Bool} {rest r : List Char}
    {n : Numeral} (h : s.numeral negative rest = .ok (n, r)) : r = rest := by
  unfold Significand.numeral at h
  split at h
  · cases h
    rfl
  · simp at h

theorem splitSign_length (cs : List Char) : (Number.splitSign cs).2.length ≤ cs.length := by
  unfold Number.splitSign
  split <;> simp

theorem exponent_length {s : Significand} {negative : Bool} {cs r : List Char} {n : Numeral}
    (h : exponent s negative cs = .ok (n, r)) : r.length ≤ cs.length := by
  have signed := splitSign_length cs
  unfold exponent at h
  generalize Number.splitSign cs = parts at *
  obtain ⟨down, digits⟩ := parts
  have dropped := length_dropWhile_le isDigit digits
  simp only at h signed
  split at h
  · simp at h
  · split at h
    · simp at h
    · split at h
      · split at h
        · simp at h
        · cases h
          omega
      · rw [Significand.numeral_rest h]
        omega

theorem fraction_length {s : Significand} {negative : Bool} {cs r : List Char} {n : Numeral}
    (h : fraction s negative cs = .ok (n, r)) : r.length ≤ cs.length := by
  have dropped := length_dropWhile_le isDigit cs
  unfold fraction at h
  split at h
  · simp at h
  · split at h
    · simp at h
    · simp only at h
      split at h
      · next tail =>
        have := exponent_length h
        simp only [tail, List.length_cons] at dropped this ⊢
        omega
      · next tail =>
        have := exponent_length h
        simp only [tail, List.length_cons] at dropped this ⊢
        omega
      · rw [Significand.numeral_rest h]
        exact dropped

theorem Significand.whole_rest {s : Significand} {negative : Bool} {rest r : List Char}
    {n : Numeral} (h : s.whole negative rest = .ok (n, r)) : r = rest := by
  unfold Significand.whole at h
  split at h
  · exact Significand.numeral_rest h
  · split at h
    · cases h
      rfl
    · split at h
      · cases h
        rfl
      · cases h
        rfl

/-- The text after the leading digits of a number that starts with `c`. -/
theorem afterDigits_length {c : Char} (cs : List Char) (digit : isDigit c = true) :
    (if c = '0' then cs else (c :: cs).dropWhile isDigit).length ≤ cs.length := by
  split
  · simp
  · simpa [List.dropWhile_cons, digit] using length_dropWhile_le isDigit cs

theorem unsignedNumeral_length {negative : Bool} {s r : List Char} {n : Numeral}
    (h : unsignedNumeral negative s = .ok (n, r)) : r.length < s.length := by
  unfold unsignedNumeral at h
  split at h
  · simp at h
  · next c cs =>
    by_cases digit : isDigit c = true
    · have after := afterDigits_length cs digit
      simp only [digit, Bool.not_true, Bool.false_eq_true, if_false] at h
      simp only [List.length_cons]
      split at h
      · next tail =>
        rw [tail] at after
        have := fraction_length h
        simp only [List.length_cons] at after
        omega
      · next tail =>
        rw [tail] at after
        have := exponent_length h
        simp only [List.length_cons] at after
        omega
      · next tail =>
        rw [tail] at after
        have := exponent_length h
        simp only [List.length_cons] at after
        omega
      · next tail =>
        rw [tail] at after
        split at h
        · simp at h
        · rw [Significand.whole_rest h]
          omega
      · rw [Significand.whole_rest h]
        simp
    · simp [digit] at h

theorem numeral_length {s r : List Char} {n : Numeral} (h : numeral s = .ok (n, r)) :
    r.length < s.length := by
  unfold numeral at h
  split at h
  · have := unsignedNumeral_length h
    simp only [List.length_cons]
    omega
  · exact unsignedNumeral_length h

theorem passExponent_length {cs r : List Char} (h : passExponent cs = .ok r) :
    r.length ≤ cs.length := by
  unfold passExponent at h
  have signed : (match cs with
    | '+' :: r => r
    | '-' :: r => r
    | r => r).length ≤ cs.length := by
    split <;> simp
  generalize (match cs with
    | '+' :: r => r
    | '-' :: r => r
    | r => r) = digits at *
  have dropped := length_dropWhile_le isDigit digits
  cases digits with
  | nil => simp at h
  | cons c ds =>
    simp only at h
    split at h
    · cases h
      omega
    · simp at h

theorem passFraction_length {cs r : List Char} (h : passFraction cs = .ok r) :
    r.length ≤ cs.length := by
  have dropped := length_dropWhile_le isDigit cs
  unfold passFraction at h
  split at h
  · simp at h
  · split at h
    · simp at h
    · split at h
      · next tail =>
        have := passExponent_length h
        simp only [tail, List.length_cons] at dropped this ⊢
        omega
      · next tail =>
        have := passExponent_length h
        simp only [tail, List.length_cons] at dropped this ⊢
        omega
      · cases h
        exact dropped

theorem passUnsigned_length {s r : List Char} (h : passUnsigned s = .ok r) :
    r.length < s.length := by
  unfold passUnsigned at h
  split at h
  · simp at h
  · next c cs =>
    by_cases digit : isDigit c = true
    · have after := afterDigits_length cs digit
      simp only [digit, Bool.not_true, Bool.false_eq_true, if_false] at h
      simp only [List.length_cons]
      split at h
      · next tail =>
        rw [tail] at after
        have := passFraction_length h
        simp only [List.length_cons] at after
        omega
      · next tail =>
        rw [tail] at after
        have := passExponent_length h
        simp only [List.length_cons] at after
        omega
      · next tail =>
        rw [tail] at after
        have := passExponent_length h
        simp only [List.length_cons] at after
        omega
      · next tail =>
        rw [tail] at after
        split at h
        · simp at h
        · cases h
          omega
      · cases h
        simp
    · simp [digit] at h

theorem passNumber_length {s r : List Char} (h : passNumber s = .ok r) :
    r.length < s.length := by
  unfold passNumber at h
  split at h
  · have := passUnsigned_length h
    simp only [List.length_cons]
    omega
  · exact passUnsigned_length h

end LayoutCompiler.Json
