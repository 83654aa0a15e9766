import LayoutCompiler.Document.Writer
import LayoutCompiler.Screen.Basic
import LayoutCompiler.Screen.Defaults

/-
Documents of screens. A screen is a root with one column; a button is a box around
its label, a card a box around a column, and spacers and dividers are empty boxes.
The texts of an element are numbered in the order action, label, children.
-/

namespace LayoutCompiler.Document

open Number (Single)

/-- The number under which every click is reported. -/
def clickActionId : Int32 := 1001

/-- The same horizontal padding left and right and the same vertical padding above and below. -/
def Options.symmetricPadding (o : Options) (horizontal vertical : Int32) : Modifier :=
  .padding (o.dp horizontal) (o.dp vertical) (o.dp horizontal) (o.dp vertical)

/-- Padding, unless it takes no room. -/
def Options.paddingUnlessEmpty (o : Options) (p : Padding) : List Modifier :=
  if p.isEmpty then [] else [o.symmetricPadding p.horizontal p.vertical]

/-- The outline with corners of the given radius. -/
def Options.rounded (o : Options) (radius : Int32) : Outline :=
  .rounded (o.dp radius)

/-- A border along an outline, if there is one. -/
def Options.borders (o : Options) (border : Option Border) (outline : Outline) : List Modifier :=
  (border.map fun b => .border (o.dp b.width) b.color outline).toList

def rootModifiers (o : Options) (s : Screen) : List Modifier :=
  [.fillMaxSize, .background s.background] ++
    (if s.scrollable then [.verticalScroll] else []) ++
    [.paddingAll (o.dp s.padding)]

def textModifiers (o : Options) (t : Element.Text) : List Modifier :=
  .padding .zero .zero .zero (o.dp t.bottomMargin) :: o.paddingUnlessEmpty t.padding

def buttonModifiers (o : Options) (parent : Parent) (b : Element.Button) (action : HostAction) :
    List Modifier :=
  (if parent.stretchesButtons then [.fillMaxWidth] else []) ++
    [.clip (o.rounded b.cornerRadius), .background b.background] ++
    o.borders b.border (o.rounded b.cornerRadius) ++
    [.onClick action, o.symmetricPadding b.padding.horizontal b.padding.vertical]

def spacerModifiers (o : Options) (height : Int32) : List Modifier :=
  [.height (o.dp height)]

def dividerModifiers (o : Options) (thickness : Int32) (color : Color) : List Modifier :=
  [.fillMaxWidth, .height (o.dp thickness), .background color]

def cardModifiers (o : Options) (c : Element.Card) (action : Option HostAction) :
    List Modifier :=
  [.fillMaxWidth] ++
    o.borders c.border (o.rounded c.cornerRadius) ++
    (if 0 < c.cornerRadius then [.clip (o.rounded c.cornerRadius)] else []) ++
    [.background c.background] ++
    (action.map Modifier.onClick).toList ++
    o.paddingUnlessEmpty c.padding

def rowModifiers (o : Options) (paddingV : Int32) : List Modifier :=
  [.fillMaxWidth, .padding .zero (o.dp paddingV) .zero (o.dp paddingV)]

/-- Steps of writing a document, up to the first error. -/
abbrev Recording := StateT Writer (Except WriteError)

namespace Recording

/-- The number of a text. -/
def textId (text : String) : Recording TextId := fun w =>
  .ok (w.addText text)

/-- A step that cannot fail. -/
def step (f : Writer → Writer) : Recording Unit := fun w =>
  .ok ((), f w)

/-- A step that ends something. -/
def ending (f : Writer → Except WriteError Unit × Writer) : Recording Unit := fun w =>
  match f w with
  | (.ok (), w') => .ok ((), w')
  | (.error e, _) => .error e

/-- An action that reports a name. -/
def hostAction (name : String) : Recording HostAction := do
  let id ← textId name
  return ⟨clickActionId, id⟩

def text (o : Options) (t : Element.Text) : Recording Unit := do
  let id ← textId t.text
  step (·.textRun {
    modifiers := textModifiers o t
    text := id
    color := t.color
    fontSize := o.sp t.fontSize
    fontWeight := Defaults.Text.fontWeight
    align := .leading })

def button (o : Options) (parent : Parent) (b : Element.Button) : Recording Unit := do
  let action ← hostAction b.action
  let label ← textId b.label
  step (·.startBox (buttonModifiers o parent b action) .center .center)
  step (·.textRun {
    modifiers := []
    text := label
    color := b.textColor
    fontSize := o.sp b.fontSize
    fontWeight := Defaults.Button.fontWeight
    align := .center })
  ending Writer.endContainer

/-- A box without content. -/
def emptyBox (modifiers : List Modifier) : Recording Unit := do
  step (·.startBox modifiers .leading .leading)
  ending Writer.endContainer

/-- The action of a card, if it has one. -/
def cardAction : Option String → Recording (Option HostAction)
  | none => return none
  | some name => do
    let action ← hostAction name
    return some action

mutual

def element (o : Options) (parent : Parent) : Element → Recording Unit
  | .text t => text o t
  | .button b => button o parent b
  | .spacer height => emptyBox (spacerModifiers o height)
  | .divider thickness color => emptyBox (dividerModifiers o thickness color)
  | .card c children => do
    let action ← cardAction c.action
    step (·.startBox (cardModifiers o c action) .leading .leading)
    step (·.startColumn [.fillMaxWidth] c.align .leading)
    elements o .column children
    ending Writer.endContainer
    ending Writer.endContainer
  | .row paddingV children => do
    step (·.startRow (rowModifiers o paddingV) .spaceEvenly .center)
    elements o .row children
    ending Writer.endContainer

def elements (o : Options) (parent : Parent) : List Element → Recording Unit
  | [] => return ()
  | e :: es => do
    element o parent e
    elements o parent es

end

def screen (o : Options) (s : Screen) : Recording Unit := do
  step (·.begin o)
  step (·.startRoot)
  step (·.startColumn (rootModifiers o s) .center s.verticalArrangement)
  elements o .column s.elements
  ending Writer.endContainer
  ending Writer.endRoot

end Recording

/-- The document after a screen has been written with `w`. -/
def build (w : Writer) (o : Options) (s : Screen) : Except WriteError Document := do
  let ((), w') ← Recording.screen o s w
  w'.document

end LayoutCompiler.Document
