import LayoutCompiler.Text.Hexadecimal

/-
Writing JSON without white space. Quotes, backslashes and control characters are
escaped in texts, nothing else is.
-/

namespace LayoutCompiler.Json

/-- How one character appears inside a JSON string. -/
def escaped (c : Char) : List Char :=
  match c with
  | '"' => ['\\', '"']
  | '\\' => ['\\', '\\']
  | '\x08' => ['\\', 'b']
  | '\t' => ['\\', 't']
  | '\n' => ['\\', 'n']
  | '\x0c' => ['\\', 'f']
  | '\r' => ['\\', 'r']
  | c => if c.toNat < 0x20 then ['\\', 'u'] ++ Text.hexPadded 4 c.toNat else [c]

/-- A text as a JSON string. -/
def printText (s : String) : List Char :=
  '"' :: s.toList.flatMap escaped ++ ['"']

/-- An integer. -/
def printInt (i : Int) : List Char :=
  (toString i).toList

/-- A truth value. -/
def printBool (b : Bool) : List Char :=
  (if b then "true" else "false").toList

/-- Printed items, separated by commas. -/
def separated (items : List (List Char)) : List Char :=
  [','].intercalate items

/-- A list of printed values. -/
def printList (items : List (List Char)) : List Char :=
  '[' :: separated items ++ [']']

/-- An object with the given names and printed values. -/
def printObject (members : List (String × List Char)) : List Char :=
  '\x7b' :: separated (members.map fun (name, value) => printText name ++ ':' :: value) ++ ['\x7d']

end LayoutCompiler.Json
