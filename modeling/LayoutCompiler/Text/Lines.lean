/-
Lines of bytes or characters. A line ends in a line feed, and a carriage return
before that feed belongs to the end of the line; after the last line feed there
is one more line only if something stands there.
-/

namespace LayoutCompiler.Text

section

variable {α : Type} [DecidableEq α] (feed carriage : α)

/-- What stands before the first line feed, and what stands after it if there is one. -/
def splitLine (xs : List α) : List α × Option (List α) :=
  match xs.dropWhile (· ≠ feed) with
  | [] => (xs, none)
  | _ :: rest => (xs.takeWhile (· ≠ feed), some rest)

/-- A line that ended in a line feed, without a carriage return before it. -/
def dropReturn (line : List α) : List α :=
  if line.getLast? = some carriage then line.dropLast else line

/-- The first lines, at most `fuel` of them, without their ends. -/
def linesWithin : (fuel : Nat) → List α → List (List α)
  | 0, _ => []
  | fuel + 1, xs =>
    match splitLine feed xs with
    | (line, some rest) => dropReturn carriage line :: linesWithin fuel rest
    | ([], none) => []
    | (line, none) => [line]

/-- The lines, without their ends. -/
def lines (xs : List α) : List (List α) :=
  linesWithin feed carriage (xs.length + 1) xs

end

/-- The lines of bytes, without their ends. -/
def byteLines (bytes : List UInt8) : List (List UInt8) :=
  lines 10 13 bytes

/-- The lines of a text, without their ends. -/
def textLines (s : String) : List String :=
  (lines '\n' '\r' s.toList).map String.ofList

end LayoutCompiler.Text
