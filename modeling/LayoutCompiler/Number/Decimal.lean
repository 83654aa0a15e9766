import LayoutCompiler.Number.Binary

/-
Decimal numbers `digits * 10 ^ exponent`: rounding them into a binary format,
finding the shortest one that rounds to a given value, and writing them.

A value `m * 2 ^ q` is the rounding of exactly the reals between the midpoints to
its two neighbours, both ends included if and only if `m` is even. `shortest`
looks, for one digit, two digits and so on, at the two points of that decimal
grid next to the value; the first grid with a point in the interval wins, and of
two such points the nearer one, or the even one if they are equally near.
-/

namespace LayoutCompiler.Number

/-- The number `digits * 10 ^ exponent`. -/
structure Decimal where
  digits : Nat
  exponent : Int
  deriving DecidableEq, Repr

/-- The decimal digits of `n`. -/
def decimalDigits (n : Nat) : List Char :=
  Nat.toDigits 10 n

/-- The least `k` with `num / den < 10 ^ k`, for positive `num` and `den`. -/
def decimalLog (num den : Nat) : Int :=
  if den ≤ num then (decimalDigits (num / den)).length
  else 1 - ((decimalDigits ((den - 1) / num)).length : Int)

namespace Format

/-- The pattern of the value nearest to `d`. A number of more than 400 digits before the point
is beyond every format, and one with more than 400 zeros after the point is below all of them. -/
def ofDecimal (f : Format) (d : Decimal) : Nat :=
  let length : Int := (decimalDigits d.digits).length + d.exponent
  if d.digits = 0 ∨ length < -400 then 0
  else if 400 < length then f.infinity
  else f.ofRatio (d.digits * Nat.pow 10 d.exponent.toNat) (Nat.pow 10 (-d.exponent).toNat)

/-- The interval of reals that round to a value, scaled by `scale`, and the value itself. -/
structure Interval where
  low : Nat
  value : Nat
  high : Nat
  scale : Nat
  closed : Bool

/-- The reals that round to the finite positive value with the given pattern. Below a power of
two the values lie twice as close together as above it. -/
def interval (f : Format) (pattern : Nat) : Interval :=
  let (m, q) := f.scaled pattern
  let below := if m = 1 <<< f.fractionBits ∧ q ≠ f.lowest then 1 else 2
  let up := 1 <<< (q - 2).toNat
  ⟨(4 * m - below) * up, 4 * m * up, (4 * m + 2) * up, 1 <<< (2 - q).toNat, m % 2 == 0⟩

/-- Whether `num / den` lies in the interval. -/
def Interval.contains (i : Interval) (num den : Nat) : Bool :=
  let low := i.low * den
  let high := i.high * den
  let x := num * i.scale
  if i.closed then low ≤ x && x ≤ high else low < x && x < high

/-- The point with the exponent `p` next to the value that lies in the interval, the nearer one
if both do, the even one if they are equally near. -/
def Interval.gridPoint? (i : Interval) (p : Int) : Option Decimal :=
  let up := Nat.pow 10 p.toNat
  let down := Nat.pow 10 (-p).toNat
  let unit := i.scale * up
  let lower := i.value * down / unit
  let toLower := i.value * down - lower * unit
  let toUpper := (lower + 1) * unit - i.value * down
  match i.contains (lower * up) down, i.contains ((lower + 1) * up) down with
  | true, true =>
    if toLower < toUpper then some ⟨lower, p⟩
    else if toUpper < toLower then some ⟨lower + 1, p⟩
    else some ⟨lower + lower % 2, p⟩
  | true, false => some ⟨lower, p⟩
  | false, true => some ⟨lower + 1, p⟩
  | false, false => none

/-- The first grid point found when the exponent goes down from `p`, in at most `n` steps. -/
def Interval.search (i : Interval) (p : Int) : (n : Nat) → Decimal
  | 0 => ⟨0, 0⟩
  | n + 1 => (i.gridPoint? p).getD (i.search (p - 1) n)

/-- The shortest decimal that rounds to the finite positive value with the given pattern;
seventeen digits always suffice. -/
def shortest (f : Format) (pattern : Nat) : Decimal :=
  let i := f.interval pattern
  i.search (decimalLog i.value i.scale - 1) 17

end Format

namespace Decimal

/-- `d` without zeros at the end of its digits, in at most `n` steps. -/
def dropZeros (d : Decimal) : (n : Nat) → Decimal
  | 0 => d
  | n + 1 =>
    if d.digits ≠ 0 ∧ d.digits % 10 = 0 then
      dropZeros ⟨d.digits / 10, d.exponent + 1⟩ n
    else d

/-- How decimals are written: from which place of the first digit to which one they are written
positionally, where the place of the units digit is zero. -/
structure Style where
  lowest : Int
  highest : Int
  deriving DecidableEq, Repr

/-- The digits of `d` with a decimal point and at least one digit on either side of it if the
first digit has a place that `style` writes so; otherwise with one digit before the point, no
point after a lone digit, and a signed exponent. -/
def text (style : Style) (d : Decimal) : List Char :=
  let d := d.dropZeros 20
  let ds := decimalDigits d.digits
  let place : Int := ds.length + d.exponent - 1
  if style.lowest ≤ place ∧ place ≤ style.highest then
    if 0 ≤ d.exponent then ds ++ List.replicate d.exponent.toNat '0' ++ ['.', '0']
    else if 0 ≤ place then ds.take (place.toNat + 1) ++ '.' :: ds.drop (place.toNat + 1)
    else '0' :: '.' :: List.replicate (-place - 1).toNat '0' ++ ds
  else
    let mantissa := match ds with
      | [] => []
      | [c] => [c]
      | c :: cs => c :: '.' :: cs
    let sign := if place < 0 then '-' else '+'
    mantissa ++ 'e' :: sign :: decimalDigits place.natAbs

end Decimal

end LayoutCompiler.Number
