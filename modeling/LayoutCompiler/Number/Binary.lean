/-
Binary floating-point formats. A finite nonnegative value is `m * 2 ^ q`; its
pattern is the number that the exponent and fraction bits spell, so patterns of
nonnegative values are ordered as the values are. `ofRatio` rounds a quotient of
naturals to the nearest value, a tie going to the even pattern, and everything
from half a unit above the largest value on to infinity; products and quotients
of patterns are rounded through it. Signs are left to the types built on top.
-/

namespace LayoutCompiler.Number

/-- The natural number nearest to `num / den`; a tie goes to the even neighbour. -/
def roundDiv (num den : Nat) : Nat :=
  let quotient := num / den
  let twice := 2 * (num % den)
  if twice < den then quotient
  else if den < twice then quotient + 1
  else quotient + quotient % 2

/-- The greatest `k` with `2 ^ k ≤ num / den`, for positive `num` and `den`. -/
def binaryLog (num den : Nat) : Int :=
  let k : Int := (num.log2 : Int) - den.log2
  if den <<< k.toNat ≤ num <<< (-k).toNat then k else k - 1

/-- A format: the numbers of bits for the fraction and for the exponent. -/
structure Format where
  fractionBits : Nat
  exponentBits : Nat
  deriving DecidableEq, Repr

/-- The format of 32 bits. -/
def binary32 : Format := ⟨23, 8⟩

/-- The format of 64 bits. -/
def binary64 : Format := ⟨52, 11⟩

namespace Format

/-- The exponent of the smallest positive value, which is `2 ^ lowest`. -/
def lowest (f : Format) : Int :=
  2 - (1 <<< (f.exponentBits - 1) : Nat) - f.fractionBits

/-- The pattern of infinity; patterns above it are no numbers. -/
def infinity (f : Format) : Nat :=
  (1 <<< f.exponentBits - 1) <<< f.fractionBits

/-- The pattern of the value nearest to `num / den`, for positive `den`. -/
def ofRatio (f : Format) (num den : Nat) : Nat :=
  if num = 0 then 0
  else
    let q := max f.lowest (binaryLog num den - f.fractionBits)
    let m := roundDiv (num <<< (-q).toNat) (den <<< q.toNat)
    min f.infinity ((q - f.lowest).toNat <<< f.fractionBits + m)

/-- The pattern of the value nearest to `n`. -/
def ofNat (f : Format) (n : Nat) : Nat :=
  f.ofRatio n 1

/-- The `m` and `q` of the finite value `m * 2 ^ q` with the given pattern. -/
def scaled (f : Format) (pattern : Nat) : Nat × Int :=
  let fraction := pattern % (1 <<< f.fractionBits)
  match pattern >>> f.fractionBits with
  | 0 => (fraction, f.lowest)
  | e + 1 => (fraction + 1 <<< f.fractionBits, f.lowest + e)

/-- Numerator and denominator of the finite value with the given pattern. -/
def ratio (f : Format) (pattern : Nat) : Nat × Nat :=
  let (m, q) := f.scaled pattern
  (m <<< q.toNat, 1 <<< (-q).toNat)

/-- The product of two finite values. -/
def mul (f : Format) (a b : Nat) : Nat :=
  let (num₁, den₁) := f.ratio a
  let (num₂, den₂) := f.ratio b
  f.ofRatio (num₁ * num₂) (den₁ * den₂)

/-- The quotient of two finite values, the second one positive. -/
def div (f : Format) (a b : Nat) : Nat :=
  let (num₁, den₁) := f.ratio a
  let (num₂, den₂) := f.ratio b
  f.ofRatio (num₁ * den₂) (den₁ * num₂)

end Format

end LayoutCompiler.Number
