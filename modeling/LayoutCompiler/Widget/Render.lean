import LayoutCompiler.Screen.Resolve
import LayoutCompiler.Widget.Basic

/-
Widget trees of screens. A screen is a column; a button is a container around its
label, a card a container around a column.
-/

namespace LayoutCompiler.Widget

open Number (Single)

/-- A length as it is configured. -/
def length (n : Int32) : Single :=
  .ofInt n.toInt

/-- Padding with the same room on opposite sides. -/
def symmetricPadding (horizontal vertical : Int32) : Modifier :=
  .padding (.symmetric (length horizontal) (length vertical))

/-- Padding, unless it takes no room. -/
def paddingUnlessEmpty (p : Padding) : List Modifier :=
  if p.isEmpty then [] else [symmetricPadding p.horizontal p.vertical]

/-- The outline with corners of the given radius. -/
def rounded (radius : Int32) : Outline :=
  .rounded (length radius)

/-- A border along an outline, if there is one. -/
def borders (border : Option Border) (outline : Outline) : List Modifier :=
  (border.map fun b => .border (length b.width) b.color outline).toList

def rootModifiers (s : Screen) : List Modifier :=
  [.fillMaxSize, .background s.background .rectangle] ++
    (if s.scrollable then [.verticalScroll] else []) ++
    [.padding (.all (length s.padding))]

def textModifiers (t : Element.Text) : List Modifier :=
  .padding (.below (length t.bottomMargin)) :: paddingUnlessEmpty t.padding

def buttonModifiers (parent : Parent) (b : Element.Button) : List Modifier :=
  (if parent.stretchesButtons then [.fillMaxWidth] else []) ++
    [.clip (rounded b.cornerRadius), .background b.background .rectangle] ++
    borders b.border (rounded b.cornerRadius) ++
    [.clickable b.action, symmetricPadding b.padding.horizontal b.padding.vertical]

def cardModifiers (c : Element.Card) : List Modifier :=
  [.fillMaxWidth] ++
    (if 0 < c.cornerRadius then [.clip (rounded c.cornerRadius)] else []) ++
    [.background c.background (rounded c.cornerRadius)] ++
    borders c.border (rounded c.cornerRadius) ++
    (c.action.map Modifier.clickable).toList ++
    paddingUnlessEmpty c.padding

def rowModifiers (paddingV : Int32) : List Modifier :=
  [.fillMaxWidth, .padding (.symmetric .zero (length paddingV))]

mutual

/-- The widget of an element. -/
def ofElement (parent : Parent) : Element → Widget
  | .text t =>
    .text (textModifiers t) t.text (length t.fontSize) t.color Defaults.Text.fontWeight
  | .button b =>
    .container (buttonModifiers parent b) .center
      [.text [] b.label (length b.fontSize) b.textColor Defaults.Button.fontWeight]
  | .spacer height => .spacer [.height (length height)]
  | .divider thickness color => .divider (length thickness) color
  | .card c children =>
    .container (cardModifiers c) .leading
      [.column [.fillMaxWidth] .leading c.align (ofElements .column children)]
  | .row paddingV children =>
    .row (rowModifiers paddingV) .spaceEvenly .center (ofElements .row children)

/-- The widgets of elements, in order. -/
def ofElements (parent : Parent) : List Element → List Widget
  | [] => []
  | e :: es => ofElement parent e :: ofElements parent es

end

/-- The widget tree of a screen. -/
def ofScreen (s : Screen) : Widget :=
  .column (rootModifiers s) s.verticalArrangement .center (ofElements .column s.elements)

end LayoutCompiler.Widget

namespace LayoutCompiler

/-- The widget tree of a layout. -/
def Config.Layout.render (l : Layout) : Except Color.Error Widget :=
  l.resolve.map Widget.ofScreen

end LayoutCompiler
