import LayoutCompiler.Conversion
import LayoutCompiler.Proofs.Screen.Traversal
import LayoutCompiler.Widget.Render
import Mathlib.Data.List.Forall2

/-
What cannot be shown makes no difference. A layout is pruned of its elements of unknown
kind, with everything below them, and of the children of elements that show none; it
resolves as before, to the same screen or with the same error (`resolveAll_prunedAll`).
What is left of it and the screen have the same shape: the children of a card or a row
become its children one by one, each of its kind (`Resembles`).
-/

namespace LayoutCompiler

/-- The kind of an element of a screen. -/
def Element.kind : Element → Config.Kind
  | text _ => .text
  | button _ => .button
  | spacer _ => .spacer
  | divider _ _ => .divider
  | card _ _ => .card
  | row _ _ => .row

namespace Config

/-! ### Pruned layouts -/

namespace Element

/-- Whether an element is of a kind that can be shown. -/
def isKnown (e : Element) : Bool :=
  e.kind ≠ .unknown

mutual

/-- An element without what cannot be shown below it. -/
def pruned (e : Element) : Element :=
  match e with
  | ⟨kind, _, _, _, _, _, _, _, _, _, _, _, _, _, children⟩ =>
    { e with
      children :=
        match kind with
        | .card | .row => prunedChildren children
        | .text | .button | .spacer | .divider | .unknown => none }

/-- Children without those of unknown kind, if there are any. -/
def prunedChildren : Option (List Element) → Option (List Element)
  | none => none
  | some es => some (prunedAll es)

/-- Elements without those of unknown kind and without what cannot be shown below the others. -/
def prunedAll : List Element → List Element
  | [] => []
  | e :: es => if e.isKnown then e.pruned :: prunedAll es else prunedAll es

end

theorem kind_pruned (e : Element) : e.pruned.kind = e.kind := by
  cases e
  rfl

/-- What is read of an element itself stays as it is. -/
theorem own_pruned (e : Element) :
    e.pruned.resolveText = e.resolveText ∧ e.pruned.resolveButton = e.resolveButton ∧
      e.pruned.height = e.height ∧ e.pruned.resolveDivider = e.resolveDivider ∧
      e.pruned.resolveCard = e.resolveCard := by
  cases e
  exact ⟨rfl, rfl, rfl, rfl, rfl⟩

/-- Shown children are pruned, and all others are gone. -/
theorem childList_pruned (e : Element) : e.pruned.childList = prunedAll e.shownChildren := by
  obtain ⟨kind, -, -, -, -, -, -, -, -, -, -, -, -, -, children⟩ := e
  cases kind <;> cases children <;> rfl

/-! ### They resolve as before -/

/-- An element of unknown kind leaves nothing and fails never, whatever is below it. -/
theorem resolveAll_cons_of_unknown {e : Element} (h : ¬ e.isKnown) (es : List Element) :
    resolveAll (e :: es) = resolveAll es := by
  have hkind : e.kind = .unknown := by simpa [isKnown] using h
  have hresolve : e.resolve = .ok none := by rw [resolve_eq, hkind]
  rw [resolveAll, hresolve]
  cases resolveAll es <;> rfl

theorem resolveAll_prunedAll_of_each {es : List Element}
    (each : ∀ e ∈ es, e.isKnown → e.pruned.resolve = e.resolve) :
    resolveAll (prunedAll es) = resolveAll es := by
  induction es with
  | nil => rfl
  | cons e es ih =>
    have rest := ih fun e' he' => each e' (List.mem_cons_of_mem e he')
    by_cases hknown : e.isKnown
    · have first := each e List.mem_cons_self hknown
      rw [prunedAll, if_pos hknown, resolveAll, resolveAll, first, rest]
    · rw [prunedAll, if_neg hknown, resolveAll_cons_of_unknown hknown, rest]

/-- An element of known kind resolves as before. -/
theorem resolve_pruned (e : Element) (hknown : e.isKnown) : e.pruned.resolve = e.resolve := by
  induction e using inductionOn with
  | step e ih =>
    have below := resolveAll_prunedAll_of_each fun c hc => ih c (mem_childList_of_mem hc)
    rw [← childList_pruned] at below
    obtain ⟨htext, hbutton, hheight, hdivider, hcard⟩ := own_pruned e
    rw [resolve_eq, resolve_eq e, kind_pruned, htext, hbutton, hheight, hdivider, hcard, below]
    unfold shownChildren
    cases hkind : e.kind <;> rfl

theorem resolveAll_prunedAll (es : List Element) : resolveAll (prunedAll es) = resolveAll es :=
  resolveAll_prunedAll_of_each fun e _ => resolve_pruned e

/-! ### Screens have the shape of what is shown -/

/-- An element of a screen has the kind of a configured one, and its children resemble the shown
children of known kind, one by one and in order. -/
inductive Resembles : Element → LayoutCompiler.Element → Prop where
  | intro {e : Element} {el : LayoutCompiler.Element} : el.kind = e.kind →
      List.Forall₂ Resembles (e.shownChildren.filter isKnown) el.children → Resembles e el

theorem ResolvesTo.kind_eq {e : Element} {el : LayoutCompiler.Element}
    (h : ResolvesTo e (some el)) : el.kind = e.kind := by
  cases h with
  | text hkind _ | button hkind _ | divider hkind _ => exact hkind.symm
  | spacer hkind => exact hkind.symm
  | card hkind _ _ => exact hkind.symm
  | row hkind _ => exact hkind.symm

theorem forall₂_resembles_of_each {es : List Element}
    (each : ∀ e ∈ es, ∀ el, e.resolve = .ok (some el) → Resembles e el)
    {els : List LayoutCompiler.Element} (h : resolveAll es = .ok els) :
    List.Forall₂ Resembles (es.filter isKnown) els := by
  induction es generalizing els with
  | nil =>
    cases h
    exact .nil
  | cons e es ih =>
    obtain ⟨r, hr, h⟩ := Outcome.exists_of_bind_eq_ok h
    obtain ⟨rest, hrest, h⟩ := Outcome.exists_of_bind_eq_ok h
    cases h
    have below := ih (fun e' he' => each e' (List.mem_cons_of_mem e he')) hrest
    cases r with
    | none =>
      have hunknown : ¬ e.isKnown := by
        simp [isKnown, (resolvesTo_of_resolve hr).kind_eq_unknown]
      rw [List.filter_cons_of_neg hunknown]
      exact below
    | some el =>
      have hknown : e.isKnown := by
        simpa [isKnown] using (resolvesTo_of_resolve hr).kind_ne_unknown
      rw [List.filter_cons_of_pos hknown]
      exact .cons (each e List.mem_cons_self el hr) below

theorem resembles_of_resolve (e : Element) {el : LayoutCompiler.Element}
    (h : e.resolve = .ok (some el)) : Resembles e el := by
  induction e using inductionOn generalizing el with
  | step e ih =>
    have resolved := resolvesTo_of_resolve h
    exact .intro resolved.kind_eq <| forall₂_resembles_of_each
      (fun c hc _ => ih c (mem_childList_of_mem hc)) resolved.resolveAll_shownChildren

end Element

namespace Layout

/-- A layout without its elements of unknown kind, everything below them, and the children of
elements that show none. -/
def pruned (l : Layout) : Layout :=
  { l with elements := Element.prunedAll l.elements }

/-- **Pruning a layout makes no difference.** The pruned layout gives the same screen, the same
document and the same widget tree, or the same errors. The elements of the screen are those of
known kind, one for each and in order, and the same holds for the children of every card and every
row. -/
theorem resolve_pruned_resembles (l : Layout) :
    l.pruned.resolve = l.resolve ∧ (∀ o, l.pruned.document o = l.document o) ∧
      l.pruned.render = l.render ∧
      ∀ s, l.resolve = .ok s →
        List.Forall₂ Element.Resembles (l.elements.filter Element.isKnown) s.elements := by
  have hresolve : l.pruned.resolve = l.resolve := by
    rw [resolve, pruned, Element.resolveAll_prunedAll, resolve]
  refine ⟨hresolve, fun o => ?_, ?_, fun s hs => ?_⟩
  · rw [document, document, hresolve]
  · rw [render, render, hresolve]
  · exact Element.forall₂_resembles_of_each (fun e _ _ => Element.resembles_of_resolve e)
      (resolveAll_of_resolve hs)

/-- A row with an unknown element between two buttons, a color that is none below the unknown
element and below the second button, and an unknown element around a text. -/
def strayElements : Layout where
  elements := [
    { Element.ofKind .row with
      children := some [
        { Element.ofKind .button with text := some "left" },
        { Element.ofKind .unknown with
          children := some [{ Element.ofKind .text with color := some "none" }] },
        { Element.ofKind .button with
          children := some [{ Element.ofKind .divider with color := some "none" }] }] },
    { Element.ofKind .unknown with children := some [Element.ofKind .text] }]

theorem resolve_pruned_resembles_strayElements :
    ∃ s, strayElements.resolve = .ok s ∧ strayElements.pruned.resolve = .ok s ∧
      List.Forall₂ Element.Resembles (strayElements.elements.take 1) s.elements ∧
      s.elements.map (fun e => (e.kind, e.children.map LayoutCompiler.Element.kind)) =
        [(.row, [.button, .button])] := by
  obtain ⟨hresolve, -, -, hshape⟩ := resolve_pruned_resembles strayElements
  obtain ⟨s, hs⟩ : ∃ s, strayElements.resolve = .ok s :=
    Outcome.failure?_eq_none.mp (by decide +kernel)
  have hkinds : strayElements.resolve.map
      (fun s => s.elements.map fun e => (e.kind, e.children.map LayoutCompiler.Element.kind)) =
        .ok [(.row, [.button, .button])] := by
    decide +kernel
  rw [hs] at hkinds
  exact ⟨s, hs, hresolve.trans hs, hshape s hs, Except.ok.inj hkinds⟩

end Layout

end Config

end LayoutCompiler
