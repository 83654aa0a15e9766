import LayoutCompiler.Text.Blank
import LayoutCompiler.Text.Hexadecimal

/-
Colors as 32-bit words: alpha, red, green and blue, eight bits each. `Color.parse`
reads three, six or eight hexadecimal digits, `Color.text` writes all eight.
-/

namespace LayoutCompiler

/-- A color; the alpha byte is the most significant one. -/
structure Color where
  argb : UInt32
  deriving DecidableEq, Repr

namespace Color

/-- Why a text is no color. Both keep the text as it was given. -/
inductive Error where
  /-- All characters are digits, but there are `length` of them. -/
  | invalidLength (value : String) (length : Nat)
  /-- Some character is no hexadecimal digit. -/
  | invalidDigit (value : String)
  deriving DecidableEq, Repr

/-- The wording of an error. -/
def Error.message : Error → String
  | invalidLength value length =>
    "invalid hex color length in '" ++ value ++ "': expected 3, 6 or 8 digits, got " ++
      toString length
  | invalidDigit value => "invalid hex digit in color '" ++ value ++ "'"

/-- Opaque black, the color of what has none. -/
def black : Color := ⟨0xFF000000⟩

def alpha (c : Color) : UInt8 := (c.argb >>> 24).toUInt8

def red (c : Color) : UInt8 := (c.argb >>> 16).toUInt8

def green (c : Color) : UInt8 := (c.argb >>> 8).toUInt8

def blue (c : Color) : UInt8 := c.argb.toUInt8

def isOpaque (c : Color) : Bool := c.alpha == 0xFF

/-- The text without one leading number sign. -/
def withoutSign : List Char → List Char
  | '#' :: cs => cs
  | cs => cs

/-- The color with the given values of eight digits. -/
def ofDigitValues (ds : List Nat) : Color :=
  ⟨UInt32.ofNat (Text.ofDigitValues ds)⟩

/-- The opaque color with the given values of six digits. -/
def opaqueOfDigitValues (ds : List Nat) : Color :=
  ofDigitValues ([15, 15] ++ ds)

/-- Reads a color: blanks around it do not matter and a number sign may come first. Eight digits
give all four bytes, six an opaque color, and three an opaque color with every digit doubled. A
character that is no digit is reported before a wrong number of digits. -/
def parse (s : String) : Except Error Color :=
  match (withoutSign (Text.trim s.toList)).mapM Text.digitValue? with
  | none => .error (.invalidDigit s)
  | some ds =>
    match ds.length with
    | 3 => .ok (opaqueOfDigitValues (ds.flatMap fun d => [d, d]))
    | 6 => .ok (opaqueOfDigitValues ds)
    | 8 => .ok (ofDigitValues ds)
    | n => .error (.invalidLength s n)

/-- A number sign and the eight digits of the color, in upper case. -/
def text (c : Color) : String :=
  String.ofList ('#' :: (Text.hexPadded 8 c.argb.toNat).map Char.toUpper)

end Color

end LayoutCompiler
