import LayoutCompiler.Proofs.Document.Recording
import LayoutCompiler.Widget.Render

/-
Which colors of a layout are read, and what happens if one cannot be. Walking the
visible elements gives the texts of the colors in the order in which they are met
(`usedColors`); a layout fails with the error of the first of them that is no color,
and so do its document and its widget tree, for no other reason
(`render_document_error_iff`).
-/

namespace LayoutCompiler

open Outcome

/-! ### The first text that is no color -/

namespace Color

/-- The error of the first text that is no color. -/
def firstError (texts : List String) : Option Error :=
  texts.findSome? fun s => failure? (parse s)

/-- `e` is the error of a text that is no color, and all texts before it are colors. -/
def FirstRejected (texts : List String) (e : Error) : Prop :=
  ∃ before text after, texts = before ++ text :: after ∧
    (∀ s ∈ before, ∃ c, parse s = .ok c) ∧ parse text = .error e

theorem firstError_nil : firstError [] = none :=
  rfl

theorem firstError_singleton (s : String) : firstError [s] = failure? (parse s) := by
  rw [firstError, List.findSome?_singleton]

theorem firstError_append (texts texts' : List String) :
    firstError (texts ++ texts') = (firstError texts).or (firstError texts') :=
  List.findSome?_append

theorem firstError_eq_some {texts : List String} {e : Error} :
    firstError texts = some e ↔ FirstRejected texts e := by
  unfold firstError FirstRejected
  simp only [List.findSome?_eq_some_iff, failure?_eq_some, failure?_eq_none]
  constructor
  · rintro ⟨before, s, after, h, hs, hbefore⟩
    exact ⟨before, s, after, h, hbefore, hs⟩
  · rintro ⟨before, s, after, h, hbefore, hs⟩
    exact ⟨before, s, after, h, hs, hbefore⟩

theorem firstError_eq_none {texts : List String} :
    firstError texts = none ↔ ∀ s ∈ texts, ∃ c, parse s = .ok c := by
  simp only [firstError, List.findSome?_eq_none_iff, failure?_eq_none]

end Color

/-- The colors that stand for those that are absent. -/
def Defaults.colors : List String :=
  [Text.color, Button.color, Button.textColor, Divider.color, Card.color]

/-- Every default is a color. -/
theorem Defaults.failure?_parse : ∀ s ∈ colors, failure? (Color.parse s) = none := by
  decide

namespace Color

/-- Where there is a default, only a text that is there can be no color. -/
theorem failure?_parseOr (text : Option String) {default : String}
    (h : default ∈ Defaults.colors) : failure? (parseOr text default) = firstError text.toList := by
  cases text with
  | none =>
    rw [parseOr, Option.getD_none, Defaults.failure?_parse default h, Option.toList_none,
      firstError_nil]
  | some s => rw [parseOr, Option.getD_some, Option.toList_some, firstError_singleton]

end Color

/-! ### The colors that are read -/

namespace Config.Element

/-- The color of the border, if its width is positive; otherwise there is no border. -/
def shownBorderColor (e : Element) : List String :=
  if e.borderWidth.any (0 < ·) then e.borderColor.toList else []

/-- The colors of one element, without those of its children. -/
def ownColors (e : Element) : List String :=
  match e.kind with
  | .text | .divider => e.color.toList
  | .button => e.color.toList ++ e.textColor.toList ++ e.shownBorderColor
  | .card => e.color.toList ++ e.shownBorderColor
  | .spacer | .row | .unknown => []

end Config.Element

/-- The texts of the colors that are read, in order. The color of the screen comes last. -/
def Config.Layout.usedColors (l : Layout) : List String :=
  (Element.visibleAll l.elements).flatMap Element.ownColors ++ [l.backgroundColor]

open Color (firstError firstError_nil firstError_append firstError_singleton failure?_parseOr)

theorem Border.failure?_resolve (color : Option String) (width : Option Int32) :
    failure? (resolve color width) =
      firstError (if width.any (0 < ·) then color.toList else []) := by
  unfold resolve
  split
  case h_1 color width =>
    by_cases hwidth : 0 < width
    · simp [hwidth, failure?_map, firstError_singleton]
    · simp [hwidth, firstError_nil, failure?]
  case h_2 hnone =>
    cases color with
    | none => simp [firstError_nil, failure?]
    | some color =>
      cases width with
      | none => simp [firstError_nil, failure?]
      | some width => exact absurd rfl (hnone color width rfl)

namespace Config.Element

theorem failure?_resolveText (e : Element) :
    failure? e.resolveText = firstError e.color.toList := by
  have hdefault : Defaults.Text.color ∈ Defaults.colors := by decide
  rw [resolveText, failure?_bind_pure, failure?_parseOr e.color hdefault]

theorem failure?_resolveDivider (e : Element) :
    failure? e.resolveDivider = firstError e.color.toList := by
  have hdefault : Defaults.Divider.color ∈ Defaults.colors := by decide
  rw [resolveDivider, failure?_bind_pure, failure?_parseOr e.color hdefault]

theorem failure?_resolveButton (e : Element) :
    failure? e.resolveButton =
      firstError (e.color.toList ++ e.textColor.toList ++ e.shownBorderColor) := by
  have hcolor : Defaults.Button.color ∈ Defaults.colors := by decide
  have htext : Defaults.Button.textColor ∈ Defaults.colors := by decide
  rw [firstError_append, firstError_append, Option.or_assoc, ← failure?_parseOr e.color hcolor,
    ← failure?_parseOr e.textColor htext, shownBorderColor, ← Border.failure?_resolve]
  exact failure?_bind fun _ _ => failure?_bind fun _ _ => failure?_bind_pure _ _

theorem failure?_resolveCard (e : Element) :
    failure? e.resolveCard = firstError (e.color.toList ++ e.shownBorderColor) := by
  have hdefault : Defaults.Card.color ∈ Defaults.colors := by decide
  rw [firstError_append, ← failure?_parseOr e.color hdefault, shownBorderColor,
    ← Border.failure?_resolve]
  exact failure?_bind fun _ _ => failure?_bind_pure _ _

/-- What holds of each element of a list holds of the list: the first failure is that of the first
element that fails. -/
theorem failure?_resolveAll_of_each {es : List Element}
    (each : ∀ e ∈ es, failure? e.resolve = firstError (e.visible.flatMap ownColors)) :
    failure? (resolveAll es) = firstError ((visibleAll es).flatMap ownColors) := by
  induction es with
  | nil => rfl
  | cons e es ih =>
    have rest := ih fun e' he' => each e' (List.mem_cons_of_mem e he')
    rw [visibleAll, List.flatMap_append, firstError_append, ← each e List.mem_cons_self, ← rest]
    exact failure?_bind fun _ _ => failure?_bind_pure _ _

/-- An element fails with the first error of its own colors and then of those below it. -/
theorem failure?_resolve (e : Element) :
    failure? e.resolve = firstError (e.visible.flatMap ownColors) := by
  induction e using inductionOn with
  | step e ih =>
    have below := failure?_resolveAll_of_each ih
    rw [resolve_eq, visible_eq]
    cases hkind : e.kind with
    | unknown => rfl
    | text => simp [ownColors, shownChildren, hkind, visibleAll, failure?_map, failure?_resolveText]
    | divider =>
      simp [ownColors, shownChildren, hkind, visibleAll, failure?_map, failure?_resolveDivider]
    | button =>
      simp [ownColors, shownChildren, hkind, visibleAll, failure?_map, failure?_resolveButton]
    | spacer => simp [ownColors, shownChildren, hkind, visibleAll, failure?, firstError_nil]
    | row =>
      have hown : ownColors e = [] := by rw [ownColors, hkind]
      have hchildren : e.shownChildren = e.childList := by rw [shownChildren, hkind]
      rw [if_neg (by decide), List.flatMap_cons, hown, hchildren, List.nil_append, ← below]
      exact failure?_bind_pure _ _
    | card =>
      have hown : ownColors e = e.color.toList ++ e.shownBorderColor := by rw [ownColors, hkind]
      have hchildren : e.shownChildren = e.childList := by rw [shownChildren, hkind]
      rw [if_neg (by decide), List.flatMap_cons, hown, hchildren, firstError_append,
        ← failure?_resolveCard, ← below]
      exact failure?_bind fun _ _ => failure?_bind_pure _ _

end Config.Element

/-- A layout fails with the error of the first of the colors it reads that is no color. -/
theorem Config.Layout.failure?_resolve (l : Layout) :
    failure? l.resolve = firstError l.usedColors := by
  have helements := Element.failure?_resolveAll_of_each fun e (_ : e ∈ l.elements) =>
    e.failure?_resolve
  rw [usedColors, firstError_append, firstError_singleton, ← helements]
  exact failure?_bind fun _ _ => failure?_bind_pure _ _

theorem Config.Layout.failure?_render (l : Layout) : failure? l.render = failure? l.resolve :=
  failure?_map _ _

/-- **A layout is shown unless one of the colors it reads is no color.** The widget tree and the
document both fail with the error of the first such color, in the order in which the layout is
read, and neither fails for another reason; so either both are there or neither is. -/
theorem Config.Layout.render_document_error_iff (l : Layout) (o : Document.Options) :
    (∀ e, l.render = .error e ↔ Color.FirstRejected l.usedColors e) ∧
      (∀ e, l.document o = .error e ↔ ∃ k, e = .color k ∧ l.render = .error k) ∧
      ((∃ w, l.render = .ok w) ↔ ∀ s ∈ l.usedColors, ∃ c, Color.parse s = .ok c) ∧
      ((∃ d, l.document o = .ok d) ↔ ∃ w, l.render = .ok w) := by
  have hrender : failure? l.render = Color.firstError l.usedColors :=
    l.failure?_render.trans l.failure?_resolve
  refine ⟨fun e => ?_, fun e => ?_, ?_, ?_⟩
  · rw [← failure?_eq_some, hrender, Color.firstError_eq_some]
  · rw [document_eq, render]
    cases l.resolve with
    | error k =>
      constructor
      · intro h
        cases h
        exact ⟨k, rfl, rfl⟩
      · rintro ⟨k', rfl, h⟩
        cases h
        rfl
    | ok s =>
      constructor
      · exact nofun
      · rintro ⟨k', -, h⟩
        cases h
  · rw [← failure?_eq_none, hrender, Color.firstError_eq_none]
  · rw [document_eq, render]
    cases l.resolve with
    | error k => exact ⟨nofun, nofun⟩
    | ok s => exact ⟨fun _ => ⟨_, rfl⟩, fun _ => ⟨_, rfl⟩⟩

end LayoutCompiler
