import LayoutCompiler.Arrangement
import LayoutCompiler.Color

/-
Widget trees: what a toolkit shows for a screen. Lengths are in
density-independent units, as configured.
-/

namespace LayoutCompiler

open Number (Single)

/-- The room kept free on the four sides. -/
structure Widget.Insets where
  start : Single
  top : Single
  finish : Single
  bottom : Single
  deriving DecidableEq, Repr

/-- How a widget is laid out and drawn; the first modifier of a list is the outermost one. -/
inductive Widget.Modifier where
  | fillMaxSize
  | fillMaxWidth
  | background (color : Color) (outline : Outline)
  | verticalScroll
  | padding (insets : Widget.Insets)
  | height (length : Single)
  | clip (outline : Outline)
  | border (width : Single) (color : Color) (outline : Outline)
  /-- Reports `action` when the widget is clicked. -/
  | clickable (action : String)
  deriving DecidableEq, Repr

inductive Widget where
  | column (modifiers : List Widget.Modifier) (vertical : Arrangement) (horizontal : Alignment)
      (children : List Widget)
  | row (modifiers : List Widget.Modifier) (horizontal : Arrangement) (vertical : Alignment)
      (children : List Widget)
  /-- A box that stacks its children. -/
  | container (modifiers : List Widget.Modifier) (alignment : Alignment) (children : List Widget)
  | text (modifiers : List Widget.Modifier) (text : String) (fontSize : Single) (color : Color)
      (fontWeight : Single)
  | spacer (modifiers : List Widget.Modifier)
  | divider (thickness : Single) (color : Color)
  deriving Repr

namespace Widget

namespace Insets

/-- The same room left and right, and the same above and below. -/
def symmetric (horizontal vertical : Single) : Insets :=
  ⟨horizontal, vertical, horizontal, vertical⟩

/-- The same room on all sides. -/
def all (length : Single) : Insets :=
  symmetric length length

/-- Room below only. -/
def below (length : Single) : Insets :=
  ⟨.zero, .zero, .zero, length⟩

end Insets

def modifiers : Widget → List Modifier
  | column modifiers _ _ _ | row modifiers _ _ _ | container modifiers _ _
  | text modifiers _ _ _ _ | spacer modifiers => modifiers
  | divider _ _ => []

def children : Widget → List Widget
  | column _ _ _ children | row _ _ _ children | container _ _ children => children
  | text _ _ _ _ _ | spacer _ | divider _ _ => []

/-- Whether a modifier makes a widget as wide as its parent. -/
def Modifier.stretches : Modifier → Bool
  | fillMaxSize | fillMaxWidth => true
  | _ => false

/-- The action that a modifier reports on clicks. -/
def Modifier.action? : Modifier → Option String
  | clickable action => some action
  | _ => none

/-- Whether the widget is as wide as its parent; dividers always are. -/
def fillsWidth : Widget → Bool
  | divider _ _ => true
  | w => w.modifiers.any Modifier.stretches

/-- The action that clicks on the widget report. -/
def action? (w : Widget) : Option String :=
  w.modifiers.findSome? Modifier.action?

mutual

/-- The number of widgets in the tree. -/
def count : Widget → Nat
  | column _ _ _ children | row _ _ _ children | container _ _ children => 1 + countAll children
  | text _ _ _ _ _ | spacer _ | divider _ _ => 1

def countAll : List Widget → Nat
  | [] => 0
  | w :: ws => w.count + countAll ws

end

mutual

/-- The texts in the tree, in order. -/
def texts : Widget → List String
  | column _ _ _ children | row _ _ _ children | container _ _ children => textsOfAll children
  | text _ t _ _ _ => [t]
  | spacer _ | divider _ _ => []

def textsOfAll : List Widget → List String
  | [] => []
  | w :: ws => w.texts ++ textsOfAll ws

end

mutual

/-- The actions in the tree, each widget before its children. -/
def actions (w : Widget) : List String :=
  w.action?.toList ++
    match w with
    | column _ _ _ children | row _ _ _ children | container _ _ children =>
      actionsOfAll children
    | text _ _ _ _ _ | spacer _ | divider _ _ => []

def actionsOfAll : List Widget → List String
  | [] => []
  | w :: ws => w.actions ++ actionsOfAll ws

end

end Widget

end LayoutCompiler
