import LayoutCompiler.Number.Single

/-
The vocabulary that configurations, documents and widgets share for placing
children and for outlines.
-/

namespace LayoutCompiler

/-- Placement of children across the main axis of a column or row, or inside a box. -/
inductive Alignment where
  | leading
  | trailing
  | center
  deriving DecidableEq, Repr

/-- Distribution of children along the main axis of a column or row. -/
inductive Arrangement where
  | leading
  | center
  | trailing
  | spaceEvenly
  deriving DecidableEq, Repr

/-- The outline of a clip, a border or a background. A radius is a length in the unit of the tree
that holds it. -/
inductive Outline where
  | rectangle
  | roundedRect (radius : Number.Single)
  deriving DecidableEq, Repr

namespace Alignment

def name : Alignment → String
  | leading => "start"
  | trailing => "end"
  | center => "center"

/-- The alignment with the given name; any other name means the center. -/
def ofName (s : String) : Alignment :=
  if s = "start" then leading else if s = "end" then trailing else center

theorem ofName_name (a : Alignment) : ofName a.name = a := by
  cases a <;> decide

end Alignment

namespace Arrangement

def name : Arrangement → String
  | leading => "start"
  | center => "center"
  | trailing => "end"
  | spaceEvenly => "space-evenly"

/-- All arrangements, in the order in which messages list them. -/
def all : List Arrangement := [leading, center, trailing, spaceEvenly]

/-- The arrangement with the given name. -/
def ofName? (s : String) : Option Arrangement :=
  all.find? fun a => a.name == s

end Arrangement

/-- A rectangle with corners of the given radius; corners need a positive one. -/
def Outline.rounded (radius : Number.Single) : Outline :=
  if radius.isPositive then .roundedRect radius else .rectangle

end LayoutCompiler
