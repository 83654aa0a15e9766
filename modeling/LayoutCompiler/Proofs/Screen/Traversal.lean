import LayoutCompiler.Json.Failure
import LayoutCompiler.Proofs.Outcome
import LayoutCompiler.Screen.Resolve
import Mathlib.Data.List.Basic

/-
Walking layouts and screens in document order, each element before its children.
`Config.Element.visible` lists what of a configured element is looked at at all:
cards and rows lead to their children, and an unknown element is left out with
everything below it. `Element.preorder` lists an element of a screen and all that
is below it. Resolving sends the one list to the other, element by element, so
whatever is read off the elements one at a time is the same before and after
(`flatMap_preorderAll_of_resolveAll`).
-/

namespace LayoutCompiler

/-! ### Screens -/

namespace Element

mutual

/-- Induction from the children of an element to the element. -/
theorem inductionOn {motive : Element → Prop}
    (step : ∀ e : Element, (∀ c ∈ e.children, motive c) → motive e) : ∀ e : Element, motive e
  | .text t => step (.text t) fun _ hc => absurd hc List.not_mem_nil
  | .button b => step (.button b) fun _ hc => absurd hc List.not_mem_nil
  | .spacer h => step (.spacer h) fun _ hc => absurd hc List.not_mem_nil
  | .divider t color => step (.divider t color) fun _ hc => absurd hc List.not_mem_nil
  | .card c children => step (.card c children) (inductionOn_all step children)
  | .row v children => step (.row v children) (inductionOn_all step children)

theorem inductionOn_all {motive : Element → Prop}
    (step : ∀ e : Element, (∀ c ∈ e.children, motive c) → motive e) :
    ∀ es : List Element, ∀ c ∈ es, motive c
  | [], _, hc => absurd hc List.not_mem_nil
  | e :: es, c, hc => (List.mem_cons.mp hc).elim (fun h => h ▸ inductionOn step e)
      (fun h => inductionOn_all step es c h)

end

mutual

/-- An element and everything below it. -/
def preorder (e : Element) : List Element :=
  e :: match e with
    | .card _ children | .row _ children => preorderAll children
    | .text _ | .button _ | .spacer _ | .divider _ _ => []

/-- Elements, each with everything below it. -/
def preorderAll : List Element → List Element
  | [] => []
  | e :: es => e.preorder ++ preorderAll es

end

theorem preorderAll_eq_flatMap (es : List Element) : preorderAll es = es.flatMap preorder := by
  induction es with
  | nil => rfl
  | cons e es ih => rw [preorderAll, ih, List.flatMap_cons]

/-- What elements say one after another, if each says what is read off it and those below it. -/
theorem flatMap_eq_flatMap_preorderAll {α : Type} {say own : Element → List α} {es : List Element}
    (each : ∀ e ∈ es, say e = e.preorder.flatMap own) :
    es.flatMap say = (preorderAll es).flatMap own := by
  rw [preorderAll_eq_flatMap, List.flatMap_assoc]
  exact List.flatMap_congr each

theorem preorderAll_append (es es' : List Element) :
    preorderAll (es ++ es') = preorderAll es ++ preorderAll es' := by
  rw [preorderAll_eq_flatMap, preorderAll_eq_flatMap, preorderAll_eq_flatMap, List.flatMap_append]

theorem preorder_eq_cons (e : Element) : e.preorder = e :: preorderAll e.children := by
  cases e <;> rfl

end Element

/-! ### Layouts -/

namespace Config.Element

mutual

/-- Induction from the children of an element to the element. -/
theorem inductionOn {motive : Element → Prop}
    (step : ∀ e : Element, (∀ c ∈ e.childList, motive c) → motive e) : ∀ e : Element, motive e
  | ⟨kind, id, text, color, textColor, fontSize, height, cornerRadius, borderColor, borderWidth,
      paddingH, paddingV, actionName, align, children⟩ =>
    step ⟨kind, id, text, color, textColor, fontSize, height, cornerRadius, borderColor,
      borderWidth, paddingH, paddingV, actionName, align, children⟩
      (inductionOn_children step children)

theorem inductionOn_children {motive : Element → Prop}
    (step : ∀ e : Element, (∀ c ∈ e.childList, motive c) → motive e) :
    ∀ children : Option (List Element), ∀ c ∈ children.getD [], motive c
  | none, _, hc => absurd hc List.not_mem_nil
  | some es, c, hc => inductionOn_all step es c hc

theorem inductionOn_all {motive : Element → Prop}
    (step : ∀ e : Element, (∀ c ∈ e.childList, motive c) → motive e) :
    ∀ es : List Element, ∀ c ∈ es, motive c
  | [], _, hc => absurd hc List.not_mem_nil
  | e :: es, c, hc => (List.mem_cons.mp hc).elim (fun h => h ▸ inductionOn step e)
      (fun h => inductionOn_all step es c h)

end

/-- The children that are shown; only cards and rows show any. -/
def shownChildren (e : Element) : List Element :=
  match e.kind with
  | .card | .row => e.childList
  | .text | .button | .spacer | .divider | .unknown => []

theorem mem_childList_of_mem {e c : Element} (h : c ∈ e.shownChildren) : c ∈ e.childList := by
  unfold shownChildren at h
  split at h
  · exact h
  · exact h
  all_goals exact absurd h List.not_mem_nil

mutual

/-- The elements that are looked at when `e` is shown: none if its kind is unknown, else `e` and
then what is below it. -/
def visible (e : Element) : List Element :=
  match e with
  | ⟨kind, _, _, _, _, _, _, _, _, _, _, _, _, _, children⟩ =>
    match kind with
    | .unknown => []
    | .card | .row => e :: visibleChildren children
    | .text | .button | .spacer | .divider => [e]

/-- The elements that are looked at below an element. -/
def visibleChildren : Option (List Element) → List Element
  | none => []
  | some es => visibleAll es

/-- The elements that are looked at when `es` are shown. -/
def visibleAll : List Element → List Element
  | [] => []
  | e :: es => e.visible ++ visibleAll es

end

theorem visibleChildren_eq (children : Option (List Element)) :
    visibleChildren children = visibleAll (children.getD []) := by
  cases children <;> rfl

theorem resolveChildren_eq (children : Option (List Element)) :
    resolveChildren children = resolveAll (children.getD []) := by
  cases children <;> rfl

/-- An unknown element hides everything below it, and every other one is followed by what its shown
children make visible. -/
theorem visible_eq (e : Element) :
    e.visible = if e.kind = .unknown then [] else e :: visibleAll e.shownChildren := by
  obtain ⟨kind, -, -, -, -, -, -, -, -, -, -, -, -, -, children⟩ := e
  cases kind <;> simp [visible, shownChildren, childList, visibleChildren_eq, visibleAll]

/-- How an element is resolved, by its kind. -/
theorem resolve_eq (e : Element) :
    e.resolve = match e.kind with
      | .text => e.resolveText.map some
      | .button => e.resolveButton.map some
      | .spacer => .ok (some (.spacer (e.height.getD Defaults.Spacer.height)))
      | .divider => e.resolveDivider.map some
      | .card => do
        let card ← e.resolveCard
        let children ← resolveAll e.childList
        return some (.card card children)
      | .row => do
        let children ← resolveAll e.childList
        return some (.row Defaults.Row.paddingV children)
      | .unknown => .ok none := by
  obtain ⟨kind, -, -, -, -, -, -, -, -, -, -, -, -, -, children⟩ := e
  cases kind <;> simp only [resolve, childList, resolveChildren_eq]

/-! ### From the one to the other -/

open Json (exists_of_map_eq_ok)
open Outcome (exists_of_bind_eq_ok)

theorem exists_of_resolveText {e : Element} {el : LayoutCompiler.Element}
    (h : e.resolveText = .ok el) : ∃ t, el = .text t ∧ t.text = e.text.getD "" := by
  obtain ⟨color, -, h⟩ := exists_of_bind_eq_ok h
  cases h
  exact ⟨_, rfl, rfl⟩

theorem exists_of_resolveButton {e : Element} {el : LayoutCompiler.Element}
    (h : e.resolveButton = .ok el) :
    ∃ b, el = .button b ∧ b.label = e.text.getD Defaults.Button.label ∧
      b.action = buttonAction e.actionName e.id e.text := by
  obtain ⟨background, -, h⟩ := exists_of_bind_eq_ok h
  obtain ⟨textColor, -, h⟩ := exists_of_bind_eq_ok h
  obtain ⟨border, -, h⟩ := exists_of_bind_eq_ok h
  cases h
  exact ⟨_, rfl, rfl, rfl⟩

theorem exists_of_resolveDivider {e : Element} {el : LayoutCompiler.Element}
    (h : e.resolveDivider = .ok el) : ∃ thickness color, el = .divider thickness color := by
  obtain ⟨color, -, h⟩ := exists_of_bind_eq_ok h
  cases h
  exact ⟨_, _, rfl⟩

theorem action_of_resolveCard {e : Element} {card : LayoutCompiler.Element.Card}
    (h : e.resolveCard = .ok card) : card.action = e.actionName := by
  obtain ⟨background, -, h⟩ := exists_of_bind_eq_ok h
  obtain ⟨border, -, h⟩ := exists_of_bind_eq_ok h
  cases h
  rfl

/-- What an element can be resolved to, by its kind. -/
inductive ResolvesTo (e : Element) : Option LayoutCompiler.Element → Prop where
  | text {t : LayoutCompiler.Element.Text} : e.kind = .text → e.resolveText = .ok (.text t) →
      ResolvesTo e (some (.text t))
  | button {b : LayoutCompiler.Element.Button} : e.kind = .button →
      e.resolveButton = .ok (.button b) → ResolvesTo e (some (.button b))
  | spacer : e.kind = .spacer →
      ResolvesTo e (some (.spacer (e.height.getD Defaults.Spacer.height)))
  | divider {thickness : Int32} {color : Color} : e.kind = .divider →
      e.resolveDivider = .ok (.divider thickness color) →
      ResolvesTo e (some (.divider thickness color))
  | card {card : LayoutCompiler.Element.Card} {children : List LayoutCompiler.Element} :
      e.kind = .card → e.resolveCard = .ok card → resolveAll e.childList = .ok children →
      ResolvesTo e (some (.card card children))
  | row {children : List LayoutCompiler.Element} : e.kind = .row →
      resolveAll e.childList = .ok children →
      ResolvesTo e (some (.row Defaults.Row.paddingV children))
  | unknown : e.kind = .unknown → ResolvesTo e none

theorem resolvesTo_of_resolve {e : Element} {r : Option LayoutCompiler.Element}
    (h : e.resolve = .ok r) : ResolvesTo e r := by
  rw [resolve_eq] at h
  cases hkind : e.kind with
  | text =>
    rw [hkind] at h
    obtain ⟨el, hel, rfl⟩ := exists_of_map_eq_ok h
    obtain ⟨t, rfl, -⟩ := exists_of_resolveText hel
    exact .text hkind hel
  | button =>
    rw [hkind] at h
    obtain ⟨el, hel, rfl⟩ := exists_of_map_eq_ok h
    obtain ⟨b, rfl, -⟩ := exists_of_resolveButton hel
    exact .button hkind hel
  | spacer =>
    rw [hkind] at h
    cases h
    exact .spacer hkind
  | divider =>
    rw [hkind] at h
    obtain ⟨el, hel, rfl⟩ := exists_of_map_eq_ok h
    obtain ⟨thickness, color, rfl⟩ := exists_of_resolveDivider hel
    exact .divider hkind hel
  | card =>
    rw [hkind] at h
    obtain ⟨card, hcard, h⟩ := exists_of_bind_eq_ok h
    obtain ⟨children, hchildren, h⟩ := exists_of_bind_eq_ok h
    cases h
    exact .card hkind hcard hchildren
  | row =>
    rw [hkind] at h
    obtain ⟨children, hchildren, h⟩ := exists_of_bind_eq_ok h
    cases h
    exact .row hkind hchildren
  | unknown =>
    rw [hkind] at h
    cases h
    exact .unknown hkind

/-- Only an element of unknown kind comes to nothing. -/
theorem ResolvesTo.kind_eq_unknown {e : Element} (h : ResolvesTo e none) : e.kind = .unknown := by
  cases h with
  | unknown hkind => exact hkind

theorem ResolvesTo.kind_ne_unknown {e : Element} {el : LayoutCompiler.Element}
    (h : ResolvesTo e (some el)) : e.kind ≠ .unknown := by
  intro hunknown
  cases h <;> simp_all

/-- What an element comes to has the shown children, resolved. -/
theorem ResolvesTo.resolveAll_shownChildren {e : Element} {el : LayoutCompiler.Element}
    (h : ResolvesTo e (some el)) : resolveAll e.shownChildren = .ok el.children := by
  unfold shownChildren
  cases h with
  | text hkind _ | button hkind _ | divider hkind _ =>
    rw [hkind]
    rfl
  | spacer hkind =>
    rw [hkind]
    rfl
  | card hkind _ hchildren =>
    rw [hkind]
    exact hchildren
  | row hkind hchildren =>
    rw [hkind]
    exact hchildren

section Transfer

variable {α : Type} {f : Element → List α} {g : LayoutCompiler.Element → List α}

/-- What holds of each element of a list holds of the list. -/
theorem flatMap_preorderAll_of_each {es : List Element}
    (each : ∀ e ∈ es, ∀ r, e.resolve = .ok r →
      (LayoutCompiler.Element.preorderAll r.toList).flatMap g = e.visible.flatMap f)
    {els : List LayoutCompiler.Element} (h : resolveAll es = .ok els) :
    (LayoutCompiler.Element.preorderAll els).flatMap g = (visibleAll es).flatMap f := by
  induction es generalizing els with
  | nil =>
    cases h
    rfl
  | cons e es ih =>
    obtain ⟨r, hr, h⟩ := exists_of_bind_eq_ok h
    obtain ⟨rest, hrest, h⟩ := exists_of_bind_eq_ok h
    cases h
    rw [LayoutCompiler.Element.preorderAll_append, List.flatMap_append, visibleAll,
      List.flatMap_append, each e List.mem_cons_self r hr,
      ih (fun e' he' => each e' (List.mem_cons_of_mem e he')) hrest]

/-- **What is read off the elements one at a time survives resolution.** If `g` reads off a resolved
element what `f` reads off the configured one, then `g` along the resolved elements gives what `f`
gives along the visible ones. -/
theorem flatMap_preorderAll_of_resolveAll
    (own : ∀ e el, e.resolve = .ok (some el) → g el = f e) {es : List Element}
    {els : List LayoutCompiler.Element} (h : resolveAll es = .ok els) :
    (LayoutCompiler.Element.preorderAll els).flatMap g = (visibleAll es).flatMap f := by
  have each : ∀ (e : Element) (r : Option LayoutCompiler.Element), e.resolve = .ok r →
      (LayoutCompiler.Element.preorderAll r.toList).flatMap g = e.visible.flatMap f := by
    intro e
    induction e using inductionOn with
    | step e ih =>
      intro r hr
      rw [visible_eq]
      cases r with
      | none =>
        rw [if_pos (resolvesTo_of_resolve hr).kind_eq_unknown]
        rfl
      | some el =>
        have resolved := resolvesTo_of_resolve hr
        have below := flatMap_preorderAll_of_each (fun c hc => ih c (mem_childList_of_mem hc))
          resolved.resolveAll_shownChildren
        rw [if_neg resolved.kind_ne_unknown, List.flatMap_cons, ← own e el hr, ← below,
          ← List.flatMap_cons, ← LayoutCompiler.Element.preorder_eq_cons]
        show (el.preorder ++ []).flatMap g = el.preorder.flatMap g
        rw [List.append_nil]
  exact flatMap_preorderAll_of_each (fun e _ => each e) h

end Transfer

end Config.Element

/-- A screen has what its elements come to. -/
theorem Config.Layout.resolveAll_of_resolve {l : Config.Layout} {s : Screen}
    (h : l.resolve = .ok s) : Config.Element.resolveAll l.elements = .ok s.elements := by
  obtain ⟨elements, helements, h⟩ := Outcome.exists_of_bind_eq_ok h
  obtain ⟨background, -, h⟩ := Outcome.exists_of_bind_eq_ok h
  cases h
  exact helements

end LayoutCompiler
