import LayoutCompiler.Number.Binary

/-
Numbers of the 32-bit binary format, kept as their bits, so that two of them are
equal exactly when they are written alike. Conversions from integers and products
round to nearest, ties to even; conversion to an unsigned word drops the fraction
and stays within the word's range.
-/

namespace LayoutCompiler.Number

/-- A number of the 32-bit binary format: sign, eight exponent bits, 23 fraction bits. -/
structure Single where
  bits : UInt32
  deriving DecidableEq, Repr, Inhabited

namespace Single

/-- Zero, with a positive sign. -/
def zero : Single := ⟨0⟩

/-- The number that results from an operation without one, such as zero times infinity. -/
def invalid : Single := ⟨0xFFC00000⟩

/-- Whether the sign bit is set. -/
def isNegative (x : Single) : Bool :=
  0x80000000 ≤ x.bits

/-- Exponent and fraction bits. -/
def pattern (x : Single) : Nat :=
  x.bits.toNat % 0x80000000

/-- Whether `x` is infinite, with either sign. -/
def isInfinite (x : Single) : Bool :=
  x.pattern == binary32.infinity

/-- Whether `x` is no number. -/
def isNaN (x : Single) : Bool :=
  binary32.infinity < x.pattern

/-- The number with the given sign and pattern. -/
def ofPattern (negative : Bool) (pattern : Nat) : Single :=
  ⟨UInt32.ofNat (pattern + if negative then 0x80000000 else 0)⟩

/-- `x` marked as the quiet form of what is no number. -/
def quiet (x : Single) : Single :=
  ⟨x.bits ||| 0x00400000⟩

/-- The number nearest to `i`. -/
def ofInt (i : Int) : Single :=
  ofPattern (decide (i < 0)) (binary32.ofNat i.natAbs)

/-- Whether `x` is greater than zero. -/
def isPositive (x : Single) : Bool :=
  !x.isNaN && !x.isNegative && 0 < x.pattern

/-- The product. What is no number stays as it is, the first operand before the second. -/
def mul (x y : Single) : Single :=
  let negative := x.isNegative != y.isNegative
  if x.isNaN then x.quiet
  else if y.isNaN then y.quiet
  else if x.isInfinite || y.isInfinite then
    if x.pattern == 0 || y.pattern == 0 then invalid
    else ofPattern negative binary32.infinity
  else ofPattern negative (binary32.mul x.pattern y.pattern)

instance : Mul Single := ⟨mul⟩

/-- The integral part of `x` as an unsigned word: zero for negative numbers and for what is no
number, the largest word for everything beyond it. -/
def toWord (x : Single) : UInt32 :=
  if x.isNaN || x.isNegative then 0
  else if x.isInfinite then 0xFFFFFFFF
  else
    let (num, den) := binary32.ratio x.pattern
    UInt32.ofNat (min (num / den) 0xFFFFFFFF)

end Single

end LayoutCompiler.Number
