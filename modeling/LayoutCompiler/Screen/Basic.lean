import LayoutCompiler.Arrangement
import LayoutCompiler.Color

/-
Screens: layouts with every default applied, every color read and everything left
out that cannot be shown. Documents and widget trees are both made from screens.
Lengths are in density-independent units.
-/

namespace LayoutCompiler

/-- Horizontal and vertical padding. -/
structure Padding where
  horizontal : Int32
  vertical : Int32
  deriving DecidableEq, Repr

/-- Whether the padding takes no room. -/
def Padding.isEmpty (p : Padding) : Bool :=
  p.horizontal ≤ 0 && p.vertical ≤ 0

structure Border where
  width : Int32
  color : Color
  deriving DecidableEq, Repr

structure Element.Text where
  text : String
  fontSize : Int32
  color : Color
  padding : Padding
  bottomMargin : Int32
  deriving DecidableEq, Repr

structure Element.Button where
  label : String
  action : String
  cornerRadius : Int32
  background : Color
  textColor : Color
  fontSize : Int32
  padding : Padding
  border : Option Border
  deriving DecidableEq, Repr

/-- A card, but for its children. -/
structure Element.Card where
  cornerRadius : Int32
  background : Color
  padding : Padding
  border : Option Border
  align : Alignment
  /-- A card without an action does not react to clicks. -/
  action : Option String
  deriving DecidableEq, Repr

/-- An element of a screen. -/
inductive Element where
  | text (text : Element.Text)
  | button (button : Element.Button)
  | spacer (height : Int32)
  | divider (thickness : Int32) (color : Color)
  | card (card : Element.Card) (children : List Element)
  | row (paddingV : Int32) (children : List Element)
  deriving Repr

/-- The children of an element; none for those that cannot have any. -/
def Element.children : Element → List Element
  | card _ children | row _ children => children
  | text _ | button _ | spacer _ | divider _ _ => []

/-- The container an element is placed in. -/
inductive Parent where
  | column
  | row
  deriving DecidableEq, Repr

/-- Buttons fill the width of a column and keep their own width in a row. -/
def Parent.stretchesButtons : Parent → Bool
  | column => true
  | row => false

/-- A root column and its elements. -/
structure Screen where
  background : Color
  scrollable : Bool
  padding : Int32
  elements : List Element
  deriving Repr

/-- Scrollable screens stack from the top, fixed ones are centered vertically. -/
def Screen.verticalArrangement (s : Screen) : Arrangement :=
  if s.scrollable then .leading else .center

end LayoutCompiler
