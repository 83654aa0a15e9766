import LayoutCompiler.Number.Single

/-
What elements are like where their configuration says nothing.
-/

namespace LayoutCompiler.Defaults

open Number (Single)

def screenPadding : Int32 := 24

namespace Text

def fontSize : Int32 := 16
def color : String := "#000000"
def bottomMargin : Int32 := 8
def fontWeight : Single := .ofInt 400

end Text

namespace Button

def label : String := "Button"
def cornerRadius : Int32 := 24
def color : String := "#6200EA"
def textColor : String := "#FFFFFF"
def fontSize : Int32 := 16
def paddingH : Int32 := 32
def paddingV : Int32 := 14
def fontWeight : Single := .ofInt 600

/-- The action of a button that has neither an action name nor an identifier nor a text. -/
def fallbackAction : String := "button"

end Button

namespace Spacer

def height : Int32 := 16

end Spacer

namespace Divider

def thickness : Int32 := 1
def color : String := "#CCCCCC"

end Divider

namespace Card

def cornerRadius : Int32 := 16
def color : String := "#FFFFFF"
def paddingH : Int32 := 16
def paddingV : Int32 := 16

end Card

namespace Row

def paddingV : Int32 := 4

end Row

end LayoutCompiler.Defaults
