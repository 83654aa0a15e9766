/-
Hexadecimal digits: reading them in either letter case and writing numbers with
them.
-/

namespace LayoutCompiler.Text

/-- The value of an ASCII hexadecimal digit. -/
def digitValue? (c : Char) : Option Nat :=
  if '0' ≤ c ∧ c ≤ '9' then some (c.toNat - '0'.toNat)
  else if 'a' ≤ c ∧ c ≤ 'f' then some (c.toNat - 'a'.toNat + 10)
  else if 'A' ≤ c ∧ c ≤ 'F' then some (c.toNat - 'A'.toNat + 10)
  else none

/-- The number that hexadecimal digits stand for, most significant first. -/
def ofDigitValues (ds : List Nat) : Nat :=
  ds.foldl (fun n d => 16 * n + d) 0

/-- Reads a hexadecimal number; `none` if some character is not a digit. -/
def hexNumber? (cs : List Char) : Option Nat :=
  (cs.mapM digitValue?).map ofDigitValues

/-- The lower-case digit for a value below sixteen. -/
def hexDigit (n : Nat) : Char :=
  if n < 10 then Char.ofNat ('0'.toNat + n) else Char.ofNat ('a'.toNat + (n - 10))

/-- The last `width` hexadecimal digits of `n`, in lower case. -/
def hexPadded : (width : Nat) → (n : Nat) → List Char
  | 0, _ => []
  | w + 1, n => hexPadded w (n / 16) ++ [hexDigit (n % 16)]

/-- The hexadecimal digits of `n` without leading zeros, in lower case; zero has one digit. -/
def hexText (n : Nat) : List Char :=
  hexPadded (n.log2 / 4 + 1) n

end LayoutCompiler.Text
