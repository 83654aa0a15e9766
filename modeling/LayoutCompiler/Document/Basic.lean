import LayoutCompiler.Arrangement
import LayoutCompiler.Color

/-
Documents: a table of texts and a flat list of operations that open and close
containers and place texts. Operations refer to texts by their position in the
table. All lengths are in device pixels.
-/

namespace LayoutCompiler.Document

open Number (Single)

/-- A position in the table of texts. -/
abbrev TextId := UInt32

/-- What is reported to the host when the node it belongs to is clicked. -/
structure HostAction where
  actionId : Int32
  name : TextId
  deriving DecidableEq, Repr

/-- How a node is laid out and drawn; the first modifier of a list is the outermost one. -/
inductive Modifier where
  | fillMaxSize
  | fillMaxWidth
  | background (color : Color)
  | verticalScroll
  | padding (left top right bottom : Single)
  | height (length : Single)
  | clip (outline : Outline)
  | border (width : Single) (color : Color) (outline : Outline)
  | onClick (action : HostAction)
  deriving DecidableEq, Repr

/-- The same padding on all sides. -/
def Modifier.paddingAll (length : Single) : Modifier :=
  .padding length length length length

inductive TextAlign where
  | leading
  | center
  deriving DecidableEq, Repr

/-- A text and how it is drawn. -/
structure TextRun where
  modifiers : List Modifier
  text : TextId
  color : Color
  fontSize : Single
  fontWeight : Single
  align : TextAlign
  deriving DecidableEq, Repr

/-- One step of drawing. -/
inductive Operation where
  | rootStart
  | rootEnd
  | columnStart (modifiers : List Modifier) (horizontal : Alignment) (vertical : Arrangement)
  | rowStart (modifiers : List Modifier) (horizontal : Arrangement) (vertical : Alignment)
  | boxStart (modifiers : List Modifier) (horizontal vertical : Alignment)
  | containerEnd
  | text (run : TextRun)
  deriving DecidableEq, Repr

def Operation.modifiers : Operation → List Modifier
  | columnStart modifiers _ _ | rowStart modifiers _ _ | boxStart modifiers _ _ => modifiers
  | text run => run.modifiers
  | rootStart | rootEnd | containerEnd => []

structure Header where
  version : UInt16
  width : UInt32
  height : UInt32
  density : Single
  deriving DecidableEq, Repr

end LayoutCompiler.Document

namespace LayoutCompiler

open Document (Header Operation TextId TextRun Modifier)

/-- A drawing for one screen size and density. -/
structure Document where
  header : Header
  texts : List String
  operations : List Operation
  deriving DecidableEq, Repr

namespace Document

/-- The text with the given number, if there is one. -/
def text? (d : Document) (id : TextId) : Option String :=
  d.texts[id.toNat]?

/-- The texts that are drawn, in order. -/
def textRuns (d : Document) : List TextRun :=
  d.operations.filterMap fun
    | .text run => some run
    | _ => none

/-- The names of the actions that clicks report, in order; those out of range are left out. -/
def actionNames (d : Document) : List String :=
  (d.operations.flatMap Operation.modifiers).filterMap fun
    | .onClick action => d.text? action.name
    | _ => none

end Document

end LayoutCompiler
