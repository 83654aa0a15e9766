import LayoutCompiler.Arrangement

/-
Layout configurations: what a screen shows, as written by its author. Everything
optional is kept as absent or present, colors are kept as their texts, and every
element has one form whatever its kind.
-/

namespace LayoutCompiler.Config

/-- The kind of an element; a kind of another name is unknown. -/
inductive Kind where
  | text
  | button
  | spacer
  | divider
  | card
  | row
  | unknown
  deriving DecidableEq, Repr

namespace Kind

def name : Kind → String
  | text => "text"
  | button => "button"
  | spacer => "spacer"
  | divider => "divider"
  | card => "card"
  | row => "row"
  | unknown => "unknown"

/-- The kinds that can be shown. -/
def known : List Kind := [text, button, spacer, divider, card, row]

/-- The kind with the given name. -/
def ofName (s : String) : Kind :=
  (known.find? fun k => k.name == s).getD unknown

theorem ofName_name (k : Kind) : ofName k.name = k := by
  cases k <;> decide

end Kind

/-- An element of a layout. -/
structure Element where
  kind : Kind
  /-- Empty if absent. -/
  id : String
  text : Option String
  color : Option String
  textColor : Option String
  fontSize : Option Int32
  height : Option Int32
  cornerRadius : Option Int32
  borderColor : Option String
  borderWidth : Option Int32
  paddingH : Option Int32
  paddingV : Option Int32
  actionName : Option String
  align : Option Alignment
  children : Option (List Element)
  deriving Repr

/-- An element of the given kind with nothing else set. -/
def Element.ofKind (kind : Kind) : Element where
  kind
  id := ""
  text := none
  color := none
  textColor := none
  fontSize := none
  height := none
  cornerRadius := none
  borderColor := none
  borderWidth := none
  paddingH := none
  paddingV := none
  actionName := none
  align := none
  children := none

/-- The children of an element; none if they are absent. -/
def Element.childList (e : Element) : List Element :=
  e.children.getD []

/-- The background color of a layout that names none. -/
def defaultBackground : String := "#F3E5F5"

/-- The description of a screen. -/
structure Layout where
  backgroundColor : String := defaultBackground
  scrollable : Bool := false
  padding : Option Int32 := none
  elements : List Element := []
  deriving Repr

end LayoutCompiler.Config
