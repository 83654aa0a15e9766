import LayoutCompiler.Proofs.Screen.Traversal
import LayoutCompiler.Widget.Render

/-
What a widget tree shows: its texts and its actions are those of the elements of the
screen, in the order of the screen (`texts_ofScreen`, `actions_ofScreen`). The action
of a widget is looked for among its modifiers, so the modifiers that have none are
passed over first.
-/

namespace LayoutCompiler

/-! ### What one element shows -/

/-- The texts that one element shows, without those of its children. -/
def Element.ownTexts : Element → List String
  | .text t => [t.text]
  | .button b => [b.label]
  | .spacer _ | .divider _ _ | .card _ _ | .row _ _ => []

/-- The actions that clicks on one element report, without those of its children. -/
def Element.ownActions : Element → List String
  | .button b => [b.action]
  | .card c _ => c.action.toList
  | .text _ | .spacer _ | .divider _ _ | .row _ _ => []

namespace Screen

/-- The texts of a screen, in order. -/
def texts (s : Screen) : List String :=
  (Element.preorderAll s.elements).flatMap Element.ownTexts

/-- The actions that clicks on a screen report, in order. -/
def actions (s : Screen) : List String :=
  (Element.preorderAll s.elements).flatMap Element.ownActions

end Screen

namespace Widget

theorem ofElements_eq_map (parent : Parent) (es : List Element) :
    ofElements parent es = es.map (ofElement parent) := by
  induction es with
  | nil => rfl
  | cons e es ih => rw [ofElements, ih, List.map_cons]

/-! ### Texts -/

theorem textsOfAll_eq_flatMap (ws : List Widget) : textsOfAll ws = ws.flatMap texts := by
  induction ws with
  | nil => rfl
  | cons w ws ih => rw [textsOfAll, ih, List.flatMap_cons]

theorem texts_ofElements {parent : Parent} {es : List Element}
    (each : ∀ e ∈ es, (ofElement parent e).texts = e.preorder.flatMap Element.ownTexts) :
    textsOfAll (ofElements parent es) = (Element.preorderAll es).flatMap Element.ownTexts := by
  rw [textsOfAll_eq_flatMap, ofElements_eq_map, List.flatMap_map]
  exact Element.flatMap_eq_flatMap_preorderAll each

theorem texts_ofElement (e : Element) (parent : Parent) :
    (ofElement parent e).texts = e.preorder.flatMap Element.ownTexts := by
  induction e using Element.inductionOn generalizing parent with
  | step e ih =>
    have below (p : Parent) := texts_ofElements fun c hc => ih c hc p
    rw [Element.preorder_eq_cons, List.flatMap_cons]
    cases e with
    | text t => rfl
    | button b => rfl
    | spacer height => rfl
    | divider thickness color => rfl
    | card c children => exact (List.append_nil _).trans (below .column)
    | row paddingV children => exact below .row

theorem texts_ofScreen (s : Screen) : (ofScreen s).texts = s.texts :=
  texts_ofElements fun e _ => texts_ofElement e .column

/-! ### Actions -/

theorem findSome?_paddingUnlessEmpty (p : Padding) :
    (paddingUnlessEmpty p).findSome? Modifier.action? = none := by
  unfold paddingUnlessEmpty
  split <;> rfl

theorem findSome?_borders (border : Option Border) (outline : Outline) :
    (borders border outline).findSome? Modifier.action? = none := by
  cases border <;> rfl

theorem findSome?_rootModifiers (s : Screen) :
    (rootModifiers s).findSome? Modifier.action? = none := by
  unfold rootModifiers
  split <;> rfl

theorem findSome?_textModifiers (t : Element.Text) :
    (textModifiers t).findSome? Modifier.action? = none :=
  findSome?_paddingUnlessEmpty t.padding

theorem findSome?_buttonModifiers (parent : Parent) (b : Element.Button) :
    (buttonModifiers parent b).findSome? Modifier.action? = some b.action := by
  have hwidth : (if parent.stretchesButtons then [Modifier.fillMaxWidth] else []).findSome?
      Modifier.action? = none := by
    split <;> rfl
  rw [buttonModifiers, List.findSome?_append, List.findSome?_append, List.findSome?_append, hwidth,
    findSome?_borders]
  rfl

theorem findSome?_cardModifiers (c : Element.Card) :
    (cardModifiers c).findSome? Modifier.action? = c.action := by
  have hclip : (if 0 < c.cornerRadius then [Modifier.clip (rounded c.cornerRadius)]
      else []).findSome? Modifier.action? = none := by
    split <;> rfl
  have haction : (c.action.map Modifier.clickable).toList.findSome? Modifier.action? =
      c.action := by
    cases c.action <;> rfl
  simp only [cardModifiers, List.findSome?_append, findSome?_borders, hclip, haction,
    findSome?_paddingUnlessEmpty, Option.or_none]
  rfl

/-- The action of the widget of an element is the action of the element. -/
theorem action?_ofElement (e : Element) (parent : Parent) :
    (ofElement parent e).action?.toList = e.ownActions := by
  cases e with
  | text t => exact congrArg Option.toList (findSome?_textModifiers t)
  | button b => exact congrArg Option.toList (findSome?_buttonModifiers parent b)
  | spacer height => rfl
  | divider thickness color => rfl
  | card c children => exact congrArg Option.toList (findSome?_cardModifiers c)
  | row paddingV children => rfl

theorem actions_eq (w : Widget) : w.actions = w.action?.toList ++ actionsOfAll w.children := by
  cases w <;> simp [actions, children, actionsOfAll]

theorem actionsOfAll_eq_flatMap (ws : List Widget) : actionsOfAll ws = ws.flatMap actions := by
  induction ws with
  | nil => rfl
  | cons w ws ih => rw [actionsOfAll, ih, List.flatMap_cons]

theorem actions_ofElements {parent : Parent} {es : List Element}
    (each : ∀ e ∈ es, (ofElement parent e).actions = e.preorder.flatMap Element.ownActions) :
    actionsOfAll (ofElements parent es) = (Element.preorderAll es).flatMap Element.ownActions := by
  rw [actionsOfAll_eq_flatMap, ofElements_eq_map, List.flatMap_map]
  exact Element.flatMap_eq_flatMap_preorderAll each

theorem actions_ofElement (e : Element) (parent : Parent) :
    (ofElement parent e).actions = e.preorder.flatMap Element.ownActions := by
  induction e using Element.inductionOn generalizing parent with
  | step e ih =>
    have below (p : Parent) := actions_ofElements fun c hc => ih c hc p
    rw [Element.preorder_eq_cons, List.flatMap_cons, actions_eq, action?_ofElement]
    congr 1
    cases e with
    | text t => rfl
    | button b => rfl
    | spacer height => rfl
    | divider thickness color => rfl
    | card c children => exact (List.append_nil _).trans (below .column)
    | row paddingV children => exact below .row

theorem actions_ofScreen (s : Screen) : (ofScreen s).actions = s.actions := by
  rw [actions_eq]
  have hroot : (ofScreen s).action? = none := findSome?_rootModifiers s
  rw [hroot]
  exact actions_ofElements fun e _ => actions_ofElement e .column

end Widget

end LayoutCompiler
