import LayoutCompiler.Number.Decimal
import LayoutCompiler.Text.Quoted

/-
Why a JSON text is refused, and where. Readers report the place of a failure by
the number of bytes of the text after it, which they know without counting what
came before; `Failure.locate` turns that into a line and a column.
-/

namespace LayoutCompiler.Json

/-- The number of bytes of `cs` in UTF-8. -/
def width (cs : List Char) : Nat :=
  cs.foldl (fun n c => n + c.utf8Size) 0

/-- A scalar, or the beginning of a container, where something else was wanted. -/
inductive Found where
  | null
  | boolean (b : Bool)
  | integer (n : Int)
  /-- A number with a fraction or an exponent, or beyond all integer types, by the pattern of its
  magnitude in the 64-bit format. -/
  | fraction (negative : Bool) (pattern : Nat)
  | text (s : String)
  | sequence
  | map
  deriving DecidableEq, Repr

/-- What a reader wanted. -/
inductive Wanted where
  | signedWord
  | unsignedWord
  | text
  | boolean
  | sequence
  | unit
  | record (name : String)
  deriving DecidableEq, Repr

/-- The reason for a failure. -/
inductive Cause where
  | endInValue
  | endInList
  | endInObject
  | endInText
  | expectedValue
  | expectedWord
  | expectedColon
  | expectedListEnd
  | expectedObjectEnd
  | keyNotText
  | trailingComma
  | trailingCharacters
  | invalidNumber
  | numberOutOfRange
  | nestingLimit
  | invalidEscape
  | controlCharacter
  | loneSurrogate
  | unfinishedSurrogate
  | missingField (name : String)
  | duplicateField (name : String)
  | wrongType (found : Found) (wanted : Wanted)
  | outOfRange (n : Int) (wanted : Wanted)
  | tooShort (length : Nat) (record : String) (fields : Nat)
  | unknownVariant (name : String) (known : List String)
  deriving DecidableEq, Repr

/-- Numbers in messages are positional if their first digit has one of the places from the fifth
after the point to the sixteenth before it. -/
def numberStyle : Number.Decimal.Style := ⟨-5, 15⟩

/-- The text of a finite number in a message. -/
def fractionText (negative : Bool) (pattern : Nat) : String :=
  let magnitude :=
    if pattern = 0 then ['0', '.', '0'] else (Number.binary64.shortest pattern).text numberStyle
  String.ofList (if negative then '-' :: magnitude else magnitude)

def Found.describe : Found → String
  | null => "null"
  | boolean b => "boolean `" ++ (if b then "true" else "false") ++ "`"
  | integer n => "integer `" ++ toString n ++ "`"
  | fraction negative pattern => "floating point `" ++ fractionText negative pattern ++ "`"
  | text s => "string " ++ Text.quoted s
  | sequence => "sequence"
  | map => "map"

def Wanted.describe : Wanted → String
  | signedWord => "i32"
  | unsignedWord => "u32"
  | text => "a string"
  | boolean => "a boolean"
  | sequence => "a sequence"
  | unit => "unit"
  | record name => "struct " ++ name

/-- The wording of a cause. -/
def Cause.message : Cause → String
  | endInValue => "EOF while parsing a value"
  | endInList => "EOF while parsing a list"
  | endInObject => "EOF while parsing an object"
  | endInText => "EOF while parsing a string"
  | expectedValue => "expected value"
  | expectedWord => "expected ident"
  | expectedColon => "expected `:`"
  | expectedListEnd => "expected `,` or `]`"
  | expectedObjectEnd => "expected `,` or `\x7d`"
  | keyNotText => "key must be a string"
  | trailingComma => "trailing comma"
  | trailingCharacters => "trailing characters"
  | invalidNumber => "invalid number"
  | numberOutOfRange => "number out of range"
  | nestingLimit => "recursion limit exceeded"
  | invalidEscape => "invalid escape"
  | controlCharacter => "control character (\\u0000-\\u001F) found while parsing a string"
  | loneSurrogate => "lone leading surrogate in hex escape"
  | unfinishedSurrogate => "unexpected end of hex escape"
  | missingField name => "missing field `" ++ name ++ "`"
  | duplicateField name => "duplicate field `" ++ name ++ "`"
  | wrongType found wanted => "invalid type: " ++ found.describe ++ ", expected " ++ wanted.describe
  | outOfRange n wanted =>
    "invalid value: integer `" ++ toString n ++ "`, expected " ++ wanted.describe
  | tooShort length record fields =>
    "invalid length " ++ toString length ++ ", expected struct " ++ record ++ " with " ++
      toString fields ++ " elements"
  | unknownVariant name known =>
    "unknown variant `" ++ name ++ "`, expected one of " ++
      ", ".intercalate (known.map fun s => "`" ++ s ++ "`")

/-- A cause and the number of bytes of the text after the place where it was noticed. -/
structure Failure where
  cause : Cause
  left : Nat
  deriving DecidableEq, Repr

/-- A failure noticed just before `rest`. -/
def Failure.before (cause : Cause) (rest : List Char) : Failure :=
  ⟨cause, width rest⟩

/-- A failure noticed in the first byte of `rest`, or at the end of the text if nothing is left. -/
def Failure.inside (cause : Cause) (rest : List Char) : Failure :=
  ⟨cause, width rest - 1⟩

/-- A cause with the line and the column of its place. Lines count from one; a column is the number
of bytes after the last line break before the place. -/
structure Error where
  cause : Cause
  line : Nat
  column : Nat
  deriving DecidableEq, Repr

/-- The wording of an error. -/
def Error.message (e : Error) : String :=
  e.cause.message ++ " at line " ++ toString e.line ++ " column " ++ toString e.column

/-- The line and column after the first `index` bytes of a text that continues a line at the given
place. -/
def advance (line column : Nat) : (index : Nat) → List Char → Nat × Nat
  | _, [] => (line, column)
  | 0, _ => (line, column)
  | n + 1, c :: cs =>
    if c = '\n' then advance (line + 1) 0 n cs
    else advance line (column + min (n + 1) c.utf8Size) (n + 1 - c.utf8Size) cs

/-- The error for a failure in `text`. -/
def Failure.locate (f : Failure) (text : List Char) : Error :=
  let (line, column) := advance 1 0 (width text - f.left) text
  ⟨f.cause, line, column⟩

/-- A mapped result is one only if there was a result before. -/
theorem exists_of_map_eq_ok {ε α β : Type} {x : Except ε α} {f : α → β} {b : β}
    (h : x.map f = .ok b) : ∃ a, x = .ok a ∧ f a = b := by
  cases x with
  | error e => cases h
  | ok a => cases h; exact ⟨a, rfl, rfl⟩

end LayoutCompiler.Json
