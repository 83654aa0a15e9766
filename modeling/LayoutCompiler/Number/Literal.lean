import LayoutCompiler.Number.Decimal
import LayoutCompiler.Number.Single

/-
Reading a number of the 32-bit format from text: an optional sign, then digits
with an optional point and an optional exponent, or a word for infinity or for
what is no number. The digits are rounded once, to the nearest number.
-/

namespace LayoutCompiler.Number

/-- Whether `c` is a decimal digit. -/
def isDigit (c : Char) : Bool :=
  '0' ≤ c && c ≤ '9'

/-- The number that decimal digits stand for. -/
def ofDigits (cs : List Char) : Nat :=
  cs.foldl (fun n c => 10 * n + (c.toNat - '0'.toNat)) 0

/-- A sign, if there is one, and the text after it; `true` for a minus. -/
def splitSign : List Char → Bool × List Char
  | '-' :: cs => (true, cs)
  | '+' :: cs => (false, cs)
  | cs => (false, cs)

/-- The exponent written after the digits; nothing stands for zero. -/
def exponent? : List Char → Option Int
  | [] => some 0
  | c :: cs =>
    let (negative, digits) := splitSign cs
    if (c = 'e' ∨ c = 'E') ∧ digits ≠ [] ∧ digits.all isDigit then
      some (if negative then -(ofDigits digits : Int) else ofDigits digits)
    else none

/-- An unsigned decimal: digits, a point with digits on at least one side, an exponent. -/
def unsignedDecimal? (cs : List Char) : Option Decimal :=
  let whole := cs.takeWhile isDigit
  let rest := cs.dropWhile isDigit
  let (fraction, tail) := match rest with
    | '.' :: r => (r.takeWhile isDigit, r.dropWhile isDigit)
    | r => ([], r)
  if whole = [] ∧ fraction = [] then none
  else (exponent? tail).map fun e =>
    ⟨ofDigits (whole ++ fraction), e - fraction.length⟩

/-- The number that `s` spells; letter case does not matter in words and exponents. -/
def Single.ofText? (s : String) : Option Single :=
  let (negative, cs) := splitSign s.toList
  let word := cs.map Char.toLower
  if word = "inf".toList ∨ word = "infinity".toList then
    some (ofPattern negative binary32.infinity)
  else if word = "nan".toList then
    some (ofPattern negative (binary32.infinity + 1 <<< (binary32.fractionBits - 1)))
  else (unsignedDecimal? cs).map fun d => ofPattern negative (binary32.ofDecimal d)

end LayoutCompiler.Number
