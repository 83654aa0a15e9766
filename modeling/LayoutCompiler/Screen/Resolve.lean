import LayoutCompiler.Config.Basic
import LayoutCompiler.Screen.Basic
import LayoutCompiler.Screen.Defaults

/-
Resolving layouts to screens: defaults are applied, colors are read, and elements
of unknown kind are left out together with everything below them. The first color
that cannot be read ends the resolution; elements are met in the order of the
layout, each before its children, and the background of the screen comes last.
-/

namespace LayoutCompiler

/-- The color with the given text, or a default. -/
def Color.parseOr (text : Option String) (default : String) : Except Color.Error Color :=
  Color.parse (text.getD default)

/-- A border needs both a color and a positive width; otherwise the color is not even read. -/
def Border.resolve (color : Option String) (width : Option Int32) :
    Except Color.Error (Option Border) :=
  match color, width with
  | some color, some width =>
    if 0 < width then (Color.parse color).map fun c => some ⟨width, c⟩ else .ok none
  | _, _ => .ok none

/-- The action of a button: the first of its action name, its identifier and its text that is not
empty, or a fallback. -/
def buttonAction (actionName : Option String) (id : String) (text : Option String) : String :=
  ((actionName.toList ++ [id] ++ text.toList).find? fun s => !s.isEmpty).getD
    Defaults.Button.fallbackAction

namespace Config.Element

/-- The padding of an element, with the given defaults. -/
def paddingOr (e : Element) (horizontal vertical : Int32) : Padding :=
  ⟨e.paddingH.getD horizontal, e.paddingV.getD vertical⟩

def resolveText (e : Element) : Except Color.Error LayoutCompiler.Element := do
  let color ← Color.parseOr e.color Defaults.Text.color
  return .text {
    text := e.text.getD ""
    fontSize := e.fontSize.getD Defaults.Text.fontSize
    color
    padding := e.paddingOr 0 0
    bottomMargin := Defaults.Text.bottomMargin }

def resolveButton (e : Element) : Except Color.Error LayoutCompiler.Element := do
  let background ← Color.parseOr e.color Defaults.Button.color
  let textColor ← Color.parseOr e.textColor Defaults.Button.textColor
  let border ← Border.resolve e.borderColor e.borderWidth
  return .button {
    label := e.text.getD Defaults.Button.label
    action := buttonAction e.actionName e.id e.text
    cornerRadius := e.cornerRadius.getD Defaults.Button.cornerRadius
    background
    textColor
    fontSize := e.fontSize.getD Defaults.Button.fontSize
    padding := e.paddingOr Defaults.Button.paddingH Defaults.Button.paddingV
    border }

def resolveDivider (e : Element) : Except Color.Error LayoutCompiler.Element := do
  let color ← Color.parseOr e.color Defaults.Divider.color
  return .divider (e.height.getD Defaults.Divider.thickness) color

/-- The card that an element describes, without its children. -/
def resolveCard (e : Element) : Except Color.Error LayoutCompiler.Element.Card := do
  let background ← Color.parseOr e.color Defaults.Card.color
  let border ← Border.resolve e.borderColor e.borderWidth
  return {
    cornerRadius := e.cornerRadius.getD Defaults.Card.cornerRadius
    background
    padding := e.paddingOr Defaults.Card.paddingH Defaults.Card.paddingV
    border
    align := e.align.getD .center
    action := e.actionName }

mutual

/-- The element of a screen that `e` describes, if its kind is known. -/
def resolve (e : Element) : Except Color.Error (Option LayoutCompiler.Element) :=
  match e with
  | ⟨kind, _, _, _, _, _, _, _, _, _, _, _, _, _, children⟩ =>
    match kind with
    | .text => e.resolveText.map some
    | .button => e.resolveButton.map some
    | .spacer => .ok (some (.spacer (e.height.getD Defaults.Spacer.height)))
    | .divider => e.resolveDivider.map some
    | .card => do
      let card ← e.resolveCard
      let children ← resolveChildren children
      return some (.card card children)
    | .row => do
      let children ← resolveChildren children
      return some (.row Defaults.Row.paddingV children)
    | .unknown => .ok none

/-- The elements that children describe. -/
def resolveChildren : Option (List Element) → Except Color.Error (List LayoutCompiler.Element)
  | none => .ok []
  | some es => resolveAll es

/-- The elements that `es` describe, without those of unknown kind. -/
def resolveAll : List Element → Except Color.Error (List LayoutCompiler.Element)
  | [] => .ok []
  | e :: es => do
    let first ← e.resolve
    let rest ← resolveAll es
    return first.toList ++ rest

end

/-! ### What is left out -/

mutual

/-- The identifiers of the elements of unknown kind that resolving `e` leaves out, as far as it
comes. -/
def skipped (e : Element) : List String :=
  match e with
  | ⟨kind, id, _, _, _, _, _, _, _, _, _, _, _, _, children⟩ =>
    match kind with
    | .unknown => [id]
    | .card =>
      match e.resolveCard with
      | .ok _ => skippedChildren children
      | .error _ => []
    | .row => skippedChildren children
    | .text | .button | .spacer | .divider => []

/-- What resolving children leaves out. -/
def skippedChildren : Option (List Element) → List String
  | none => []
  | some es => skippedAll es

/-- What resolving `es` leaves out. -/
def skippedAll : List Element → List String
  | [] => []
  | e :: es =>
    e.skipped ++
      match e.resolve with
      | .ok _ => skippedAll es
      | .error _ => []

end

end Config.Element

/-- The screen that a layout describes. -/
def Config.Layout.resolve (l : Layout) : Except Color.Error Screen := do
  let elements ← Element.resolveAll l.elements
  let background ← Color.parse l.backgroundColor
  return {
    background
    scrollable := l.scrollable
    padding := l.padding.getD Defaults.screenPadding
    elements }

/-- The identifiers of the elements that resolving a layout leaves out. -/
def Config.Layout.skipped (l : Layout) : List String :=
  Element.skippedAll l.elements

end LayoutCompiler
