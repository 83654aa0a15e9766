import LayoutCompiler.Proofs.Widget.Content
import Mathlib.Data.List.Forall2

/-
Where widgets are. `Widget.placed` lists the widgets of a tree, each before its children
and with the one it is directly inside of. Those that are directly inside a column or a
row are the widgets of the elements of the screen, in order, and they are in a row if
and only if the elements are (`forall₂_elementsPlaced`).
-/

namespace LayoutCompiler

namespace Element

mutual

/-- An element and everything below it, each with the kind of container it is directly inside of. -/
def placed (parent : Parent) (e : Element) : List (Parent × Element) :=
  (parent, e) :: match e with
    | .card _ children => placedAll .column children
    | .row _ children => placedAll .row children
    | .text _ | .button _ | .spacer _ | .divider _ _ => []

/-- Elements inside a container, each with everything below it. -/
def placedAll (parent : Parent) : List Element → List (Parent × Element)
  | [] => []
  | e :: es => placed parent e ++ placedAll parent es

end

end Element

/-- The elements of a screen, each with the kind of container it is directly inside of. -/
def Screen.placed (s : Screen) : List (Parent × Element) :=
  Element.placedAll .column s.elements

namespace Widget

def isRow : Widget → Bool
  | row _ _ _ _ => true
  | column _ _ _ _ | container _ _ _ | text _ _ _ _ _ | spacer _ | divider _ _ => false

/-- Whether elements are placed directly inside a widget; they are not inside the box of a button or
of a card. -/
def holdsElements : Widget → Bool
  | column _ _ _ _ | row _ _ _ _ => true
  | container _ _ _ | text _ _ _ _ _ | spacer _ | divider _ _ => false

mutual

/-- A widget and everything below it, each with the widget it is directly inside of. -/
def placed (outer : Option Widget) (w : Widget) : List (Option Widget × Widget) :=
  (outer, w) :: match w with
    | column _ _ _ children | row _ _ _ children | container _ _ children => placedAll w children
    | text _ _ _ _ _ | spacer _ | divider _ _ => []

/-- Widgets inside a widget, each with everything below it. -/
def placedAll (outer : Widget) : List Widget → List (Option Widget × Widget)
  | [] => []
  | w :: ws => placed (some outer) w ++ placedAll outer ws

end

theorem placed_eq (outer : Option Widget) (w : Widget) :
    placed outer w = (outer, w) :: placedAll w w.children := by
  cases w <;> rfl

/-- The widgets directly inside a column or a row. -/
def elementsPlaced (l : List (Option Widget × Widget)) : List (Option Widget × Widget) :=
  l.filter fun p => p.1.any holdsElements

/-- The widget of an element, inside a row if and only if the element is. -/
def IsPlacedFor (p : Parent × Element) (q : Option Widget × Widget) : Prop :=
  q.2 = ofElement p.1 p.2 ∧ ∃ outer, q.1 = some outer ∧ (outer.isRow = true ↔ p.1 = .row)

theorem elementsPlaced_append (l l' : List (Option Widget × Widget)) :
    elementsPlaced (l ++ l') = elementsPlaced l ++ elementsPlaced l' :=
  List.filter_append ..

theorem forall₂_placedAll {parent : Parent} {outer : Widget} (es : List Element)
    (each : ∀ e ∈ es, List.Forall₂ IsPlacedFor (e.placed parent)
      (elementsPlaced (placed (some outer) (ofElement parent e)))) :
    List.Forall₂ IsPlacedFor (Element.placedAll parent es)
      (elementsPlaced (placedAll outer (ofElements parent es))) := by
  induction es with
  | nil => exact .nil
  | cons e es ih =>
    rw [ofElements, placedAll, Element.placedAll, elementsPlaced_append]
    exact List.rel_append (each e List.mem_cons_self)
      (ih fun e' he' => each e' (List.mem_cons_of_mem e he'))

theorem forall₂_placed (e : Element) {parent : Parent} {outer : Widget}
    (hholds : outer.holdsElements = true) (hrow : outer.isRow = true ↔ parent = .row) :
    List.Forall₂ IsPlacedFor (e.placed parent)
      (elementsPlaced (placed (some outer) (ofElement parent e))) := by
  induction e using Element.inductionOn generalizing parent outer with
  | step e ih =>
    have hown : IsPlacedFor (parent, e) (some outer, ofElement parent e) :=
      ⟨rfl, outer, rfl, hrow⟩
    have hkept (l : List (Option Widget × Widget)) :
        elementsPlaced ((some outer, ofElement parent e) :: l) =
          (some outer, ofElement parent e) :: elementsPlaced l :=
      List.filter_cons_of_pos hholds
    rw [placed_eq, hkept]
    cases e with
    | text t => exact .cons hown .nil
    | button b => exact .cons hown .nil
    | spacer height => exact .cons hown .nil
    | divider thickness color => exact .cons hown .nil
    | card c children =>
      -- The box of a card holds its column, and the column holds the elements.
      refine .cons hown ?_
      show List.Forall₂ IsPlacedFor _ (elementsPlaced (_ ++ []))
      rw [List.append_nil, placed_eq]
      exact forall₂_placedAll children fun c hc => ih c hc rfl (by simp [isRow])
    | row paddingV children =>
      refine .cons hown ?_
      exact forall₂_placedAll children fun c hc => ih c hc rfl (by simp [isRow, ofElement])

/-- The widgets directly inside a column or a row are those of the elements of the screen. -/
theorem forall₂_elementsPlaced (s : Screen) :
    List.Forall₂ IsPlacedFor s.placed (elementsPlaced (placed none (ofScreen s))) := by
  rw [placed_eq]
  exact forall₂_placedAll s.elements fun e _ => forall₂_placed e rfl (by simp [isRow, ofScreen])

end Widget

end LayoutCompiler
