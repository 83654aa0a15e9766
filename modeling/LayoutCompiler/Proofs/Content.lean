import LayoutCompiler.Proofs.Document.Extension

/-
Layouts, their widget trees and their documents have the same content. What a layout
says is read off its visible elements (`Layout.texts`, `Layout.actions`). Resolution
keeps it, the widget tree shows it, and the document, written as bytes and read back,
draws these texts and reports these actions through its table (`content_shown`).
-/

namespace LayoutCompiler

/-! ### What a layout says -/

namespace Config.Element

/-- The texts that one element shows, without those of its children. -/
def ownTexts (e : Element) : List String :=
  match e.kind with
  | .text => [e.text.getD ""]
  | .button => [e.text.getD "Button"]
  | .spacer | .divider | .card | .row | .unknown => []

/-- The actions that clicks on one element report, without those of its children: for a button the
first of its action name, identifier and text that is not empty, if there is one, and for a card its
action name even if it is empty. -/
def ownActions (e : Element) : List String :=
  match e.kind with
  | .button =>
    let names := e.actionName.toList ++ [e.id] ++ e.text.toList
    [(names.filter fun s => s ≠ "").headD "button"]
  | .card => e.actionName.toList
  | .text | .spacer | .divider | .row | .unknown => []

end Config.Element

namespace Config.Layout

/-- The texts of a layout, in order. -/
def texts (l : Layout) : List String :=
  (Element.visibleAll l.elements).flatMap Element.ownTexts

/-- The actions that clicks on a layout report, in order. -/
def actions (l : Layout) : List String :=
  (Element.visibleAll l.elements).flatMap Element.ownActions

/-- What holds of every layout in the memory of a machine with addresses of 64 bits: an element
takes more than eight bytes, and every text has fewer than `2 ^ 64` of them. -/
structure Addressable (l : Layout) : Prop where
  elements : 8 * (Element.visibleAll l.elements).length < 2 ^ 64
  texts : ∀ s ∈ l.texts ++ l.actions, s.utf8ByteSize < 2 ^ 64

end Config.Layout

/-! ### From layouts to screens -/

namespace Config

theorem buttonAction_eq (actionName : Option String) (id : String) (text : Option String) :
    buttonAction actionName id text =
      ((actionName.toList ++ [id] ++ text.toList).filter fun s => s ≠ "").headD "button" := by
  have hempty : (fun s : String => !s.isEmpty) = fun s => decide (s ≠ "") := by
    funext s
    by_cases hs : s = ""
    · rw [hs]
      rfl
    · rw [decide_eq_true hs, String.isEmpty_eq_false_iff.mpr hs]
      rfl
  rw [buttonAction, hempty, List.headD_eq_head?_getD, List.head?_filter]
  rfl

/-- Resolution keeps what an element says. -/
theorem Element.own_of_resolve {e : Element} {el : LayoutCompiler.Element}
    (h : e.resolve = .ok (some el)) :
    el.ownTexts = e.ownTexts ∧ el.ownActions = e.ownActions := by
  unfold ownTexts ownActions
  cases resolvesTo_of_resolve h with
  | text hkind ht =>
    obtain ⟨t, heq, htext⟩ := exists_of_resolveText ht
    cases heq
    simp [hkind, LayoutCompiler.Element.ownTexts, LayoutCompiler.Element.ownActions, htext]
  | button hkind hb =>
    obtain ⟨b, heq, hlabel, haction⟩ := exists_of_resolveButton hb
    cases heq
    rw [hkind, LayoutCompiler.Element.ownTexts, LayoutCompiler.Element.ownActions, hlabel, haction,
      buttonAction_eq]
    exact ⟨rfl, rfl⟩
  | spacer hkind =>
    rw [hkind]
    exact ⟨rfl, rfl⟩
  | divider hkind _ =>
    rw [hkind]
    exact ⟨rfl, rfl⟩
  | card hkind hcard _ =>
    rw [hkind, LayoutCompiler.Element.ownTexts, LayoutCompiler.Element.ownActions,
      action_of_resolveCard hcard]
    exact ⟨rfl, rfl⟩
  | row hkind _ =>
    rw [hkind]
    exact ⟨rfl, rfl⟩

section Resolved

variable {l : Layout} {s : Screen} (h : l.resolve = .ok s)

include h

theorem Layout.texts_of_resolve : s.texts = l.texts :=
  Element.flatMap_preorderAll_of_resolveAll (fun _ _ he => (Element.own_of_resolve he).1)
    (Layout.resolveAll_of_resolve h)

theorem Layout.actions_of_resolve : s.actions = l.actions :=
  Element.flatMap_preorderAll_of_resolveAll (fun _ _ he => (Element.own_of_resolve he).2)
    (Layout.resolveAll_of_resolve h)

theorem Layout.length_of_resolve :
    (LayoutCompiler.Element.preorderAll s.elements).length =
      (Element.visibleAll l.elements).length := by
  have hunits := Element.flatMap_preorderAll_of_resolveAll (f := fun _ => [()])
    (g := fun _ => [()]) (fun _ _ _ => rfl) (Layout.resolveAll_of_resolve h)
  simpa [List.length_flatMap] using congrArg List.length hunits

end Resolved

end Config

/-! ### From screens to documents -/

namespace Document

variable {o : Options} {s : Screen}

theorem fitsLengths_ofScreen (hdistinct : (s.texts ++ s.actions).dedup.length < 2 ^ 32)
    (helements : 8 * (Element.preorderAll s.elements).length < 2 ^ 64)
    (htexts : ∀ t ∈ s.texts ++ s.actions, t.utf8ByteSize < 2 ^ 64) :
    (ofScreen o s).FitsLengths :=
  Writer.fitsLengths_extension (w := .empty) List.nodup_nil hdistinct
    ⟨by decide, by simp [Writer.empty], fun _ ht => absurd ht List.not_mem_nil⟩
    ⟨helements, htexts⟩

section Lookup

variable (hdistinct : (s.texts ++ s.actions).dedup.length < 2 ^ 32)

include hdistinct

theorem map_text?_textRuns :
    (ofScreen o s).textRuns.map (fun run => (ofScreen o s).text? run.text) =
      s.texts.map some :=
  map_text?_runsIn o (Writer.text?_extension (w := .empty) List.nodup_nil hdistinct)

theorem map_text?_clicks :
    (clicks (ofScreen o s)).map (fun action => (ofScreen o s).text? action.name) =
      s.actions.map some :=
  map_text?_clicksIn o (Writer.text?_extension (w := .empty) List.nodup_nil hdistinct)

theorem actionNames_ofScreen : (ofScreen o s).actionNames = s.actions := by
  have h := congrArg (List.filterMap id) (map_text?_clicks (o := o) hdistinct)
  rw [actionNames_eq]
  simpa [List.filterMap_map] using h

end Lookup

end Document

/-! ### The same content -/

/-- **Layouts, widget trees and documents have the same content.** If all colors can be read, the
widget tree shows the texts and actions of the layout, and so does the document that is read back
from its bytes; no number of a text or an action is out of range. -/
theorem Config.Layout.content_shown (o : Document.Options) (l : Layout)
    (hcolors : ∃ s, l.resolve = .ok s) (hdistinct : (l.texts ++ l.actions).dedup.length < 2 ^ 32)
    (hmemory : l.Addressable) :
    ∃ w d, l.render = .ok w ∧ w.texts = l.texts ∧ w.actions = l.actions ∧
      l.document o = .ok d ∧ Document.decode d.encode = .ok d ∧
      d.textRuns.map (fun run => d.text? run.text) = l.texts.map some ∧
      d.clicks.map (fun action => d.text? action.name) = l.actions.map some ∧
      (∀ action ∈ d.clicks, action.actionId = Document.clickActionId) ∧
      d.actionNames = l.actions := by
  obtain ⟨s, hs⟩ := hcolors
  have htexts := Layout.texts_of_resolve hs
  have hactions := Layout.actions_of_resolve hs
  have hlength := Layout.length_of_resolve hs
  rw [← htexts, ← hactions] at hdistinct ⊢
  have fits : (Document.ofScreen o s).FitsLengths :=
    Document.fitsLengths_ofScreen hdistinct (hlength ▸ hmemory.elements)
      (htexts ▸ hactions ▸ hmemory.texts)
  have hdecode := Document.decode_encode fits []
  rw [List.append_nil] at hdecode
  refine ⟨Widget.ofScreen s, Document.ofScreen o s, ?_, Widget.texts_ofScreen s,
    Widget.actions_ofScreen s, ?_, hdecode, Document.map_text?_textRuns hdistinct,
    Document.map_text?_clicks hdistinct, fun _ => Document.actionId_of_mem_clicks o,
    Document.actionNames_ofScreen hdistinct⟩
  · rw [render, hs]
    rfl
  · rw [document_eq, hs]
    rfl

/-- A card that can be clicked and whose action has no name, with a text, a row with a button of
the same text, and below an unknown element a color that is none. -/
def Config.Layout.nested : Layout where
  elements := [{
    Element.ofKind .card with
    actionName := some ""
    children := some [
      { Element.ofKind .text with text := some "more" },
      { Element.ofKind .row with
        children := some [{ Element.ofKind .button with text := some "more" }] },
      { Element.ofKind .unknown with
        children := some [{ Element.ofKind .text with color := some "none" }] }] }]

theorem Config.Layout.content_shown_nested :
    (∃ s, nested.resolve = .ok s) ∧ (nested.texts ++ nested.actions).dedup.length < 2 ^ 32 ∧
      nested.Addressable ∧ nested.texts = ["more", "more"] ∧ nested.actions = ["", "more"] ∧
      ∃ w d, nested.render = .ok w ∧ w.texts = nested.texts ∧ w.actions = nested.actions ∧
        nested.document {} = .ok d ∧ Document.decode d.encode = .ok d ∧
        d.textRuns.map (fun run => d.text? run.text) = nested.texts.map some ∧
        d.clicks.map (fun action => d.text? action.name) = nested.actions.map some ∧
        (∀ action ∈ d.clicks, action.actionId = Document.clickActionId) ∧
        d.actionNames = nested.actions :=
  have hcolors : ∃ s, nested.resolve = .ok s :=
    Outcome.failure?_eq_none.mp (by decide +kernel)
  have hdistinct : (nested.texts ++ nested.actions).dedup.length < 2 ^ 32 := by decide +kernel
  have hmemory : nested.Addressable := ⟨by decide +kernel, by decide +kernel⟩
  ⟨hcolors, hdistinct, hmemory, by decide +kernel, by decide +kernel,
    content_shown {} nested hcolors hdistinct hmemory⟩

end LayoutCompiler
