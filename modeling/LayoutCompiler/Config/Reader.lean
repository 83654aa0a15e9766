import LayoutCompiler.Config.Basic
import LayoutCompiler.Json.Record

/-
Reading layout configurations from JSON. A field that may be absent may also be
`null`, apart from the identifier of an element and the fields of the layout with
a default of their own. At most 127 lists and objects may be open at once; what
is passed over under keys that name no field does not count.
-/

namespace LayoutCompiler.Config

open Json (Reader Schema Draft)

/-- The fields of an element. -/
inductive ElementField where
  | type
  | id
  | text
  | color
  | textColor
  | fontSize
  | height
  | cornerRadius
  | borderColor
  | borderWidth
  | paddingH
  | paddingV
  | actionName
  | align
  | children
  deriving DecidableEq, Repr

namespace ElementField

/-- The fields in the order in which a list of values gives them. -/
def all : List ElementField :=
  [type, id, text, color, textColor, fontSize, height, cornerRadius, borderColor, borderWidth,
    paddingH, paddingV, actionName, align, children]

def name : ElementField → String
  | type => "type"
  | id => "id"
  | text => "text"
  | color => "color"
  | textColor => "textColor"
  | fontSize => "fontSize"
  | height => "height"
  | cornerRadius => "cornerRadius"
  | borderColor => "borderColor"
  | borderWidth => "borderWidth"
  | paddingH => "paddingH"
  | paddingV => "paddingV"
  | actionName => "actionName"
  | align => "align"
  | children => "children"

/-- The type of the values of a field. -/
abbrev Value : ElementField → Type
  | type => Kind
  | id => String
  | text | color | textColor | borderColor | actionName => Option String
  | fontSize | height | cornerRadius | borderWidth | paddingH | paddingV => Option Int32
  | align => Option Alignment
  | children => Option (List Element)

/-- The readers of the fields. `room` tells whether an object or a list may be opened inside the
element, and `children` reads its children. -/
def reader (room : Bool) (children : Reader (List Element)) :
    (f : ElementField) → Reader (Value f)
  | type => .variant room fun name => .ok (Kind.ofName name)
  | id => .text
  | text | color | textColor | borderColor | actionName => .optional .text
  | fontSize | height | cornerRadius | borderWidth | paddingH | paddingV => .optional .int32
  | align => .optional (.variant room fun name => .ok (Alignment.ofName name))
  | ElementField.children => .optional children

end ElementField

/-- The title of an element in messages. -/
def elementTitle : String := "ElementConfig"

/-- The title of a layout in messages. -/
def layoutTitle : String := "LayoutConfig"

/-- The element that the fields make; its kind must not be missing. -/
def Element.ofDraft (d : Draft ElementField.Value) : Except ElementField Element :=
  match d .type with
  | none => .error .type
  | some kind =>
    .ok {
      kind
      id := (d .id).getD ""
      text := (d .text).getD none
      color := (d .color).getD none
      textColor := (d .textColor).getD none
      fontSize := (d .fontSize).getD none
      height := (d .height).getD none
      cornerRadius := (d .cornerRadius).getD none
      borderColor := (d .borderColor).getD none
      borderWidth := (d .borderWidth).getD none
      paddingH := (d .paddingH).getD none
      paddingV := (d .paddingV).getD none
      actionName := (d .actionName).getD none
      align := (d .align).getD none
      children := (d .children).getD none }

/-- The form of an element inside which objects and lists may be opened if `room` is true. -/
def elementSchema (room : Bool) (children : Reader (List Element)) :
    Schema ElementField ElementField.Value :=
  ⟨ElementField.all, ElementField.name, ElementField.reader room children⟩

/-- Reads an element where `room` more objects and lists may be opened. An element takes one, the
list of its children another one. -/
def elementReader : (room : Nat) → Reader Element
  | 0 => Schema.record elementTitle none Element.ofDraft
  | 1 => Schema.record elementTitle (some (elementSchema false (.list none))) Element.ofDraft
  | room + 2 =>
    Schema.record elementTitle (some (elementSchema true (.list (some (elementReader room)))))
      Element.ofDraft

/-- The fields of a layout. -/
inductive LayoutField where
  | backgroundColor
  | scrollable
  | padding
  | elements
  deriving DecidableEq, Repr

namespace LayoutField

/-- The fields in the order in which a list of values gives them. -/
def all : List LayoutField := [backgroundColor, scrollable, padding, elements]

def name : LayoutField → String
  | backgroundColor => "backgroundColor"
  | scrollable => "scrollable"
  | padding => "padding"
  | elements => "elements"

/-- The type of the values of a field. -/
abbrev Value : LayoutField → Type
  | backgroundColor => String
  | scrollable => Bool
  | padding => Option Int32
  | elements => List Element

/-- The readers of the fields; `elements` reads the elements. -/
def reader (elements : Reader (List Element)) : (f : LayoutField) → Reader (Value f)
  | backgroundColor => .text
  | scrollable => .boolean
  | padding => .optional .int32
  | LayoutField.elements => elements

end LayoutField

/-- The layout that the fields make; none of them is needed. -/
def Layout.ofDraft (d : Draft LayoutField.Value) : Except LayoutField Layout :=
  .ok {
    backgroundColor := (d .backgroundColor).getD defaultBackground
    scrollable := (d .scrollable).getD false
    padding := (d .padding).getD none
    elements := (d .elements).getD [] }

/-- The number of objects and lists that may be open at once. -/
def maxNesting : Nat := 127

/-- Reads a layout; the layout and the list of its elements take the first two of the objects and
lists that may be open. -/
def layoutReader : Reader Layout :=
  Schema.record layoutTitle
    (some ⟨LayoutField.all, LayoutField.name,
      LayoutField.reader (.list (some (elementReader (maxNesting - 2))))⟩)
    Layout.ofDraft

/-- Reads a layout from a JSON text. -/
def Layout.ofJson (text : String) : Except Json.Error Layout :=
  layoutReader.readAll text

/-- Reads an element from a JSON text. -/
def Element.ofJson (text : String) : Except Json.Error Element :=
  (elementReader maxNesting).readAll text

/-- Reads an alignment from a JSON text. -/
def alignmentOfJson (text : String) : Except Json.Error Alignment :=
  (Reader.variant true fun name => .ok (Alignment.ofName name)).readAll text

/-- Reads a kind from a JSON text. -/
def kindOfJson (text : String) : Except Json.Error Kind :=
  (Reader.variant true fun name => .ok (Kind.ofName name)).readAll text

/-- Reads an arrangement from a JSON text; only known names are accepted. -/
def arrangementOfJson (text : String) : Except Json.Error Arrangement :=
  (Reader.variant true fun name =>
    match Arrangement.ofName? name with
    | some a => .ok a
    | none => .error (.unknownVariant name (Arrangement.all.map Arrangement.name))).readAll text

end LayoutCompiler.Config
