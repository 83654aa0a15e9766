import LayoutCompiler.Proofs.Document.Operations
import LayoutCompiler.Widget.Render
import Mathlib.Data.List.Perm.Basic

/-
Documents and widget trees say the same. The two are made independently from the
elements of a screen; `Flattened` says of a widget, without reference to elements,
which operations are it and what is below it written down one after another, and
the document of a screen is flattened from its widget tree (`build_flattened`).
Lengths are scaled to device pixels, and the modifiers of a node are the same up to
their order. The zeros that stand for no padding on a side are the same in all units.
-/

namespace LayoutCompiler.Document

open Number (Single)

/-! ### What corresponds -/

section Counterparts

variable (o : Options) (d : Document)

/-- `y` is the length `x` in device pixels. -/
def Scaled (x y : Single) : Prop :=
  y = x * o.density ∨ x = .zero ∧ y = .zero

/-- `b` is the outline `a` in device pixels: both have corners of the same radius, as far as it is
positive. -/
def ScaledOutline (a b : Outline) : Prop :=
  ∃ radius, a = .rounded radius ∧ b = .rounded (radius * o.density)

/-- The modifier of a document that does what a modifier of a widget does. A background has no
outline of its own there. -/
inductive Counterpart : Widget.Modifier → Modifier → Prop where
  | fillMaxSize : Counterpart .fillMaxSize .fillMaxSize
  | fillMaxWidth : Counterpart .fillMaxWidth .fillMaxWidth
  | background (color : Color) (outline : Outline) :
      Counterpart (.background color outline) (.background color)
  | verticalScroll : Counterpart .verticalScroll .verticalScroll
  | padding {insets : Widget.Insets} {left top right bottom : Single} :
      Scaled o insets.start left → Scaled o insets.top top → Scaled o insets.finish right →
        Scaled o insets.bottom bottom →
        Counterpart (.padding insets) (.padding left top right bottom)
  | height (length : Single) : Counterpart (.height length) (.height (length * o.density))
  | clip {a b : Outline} : ScaledOutline o a b → Counterpart (.clip a) (.clip b)
  | border (width : Single) (color : Color) {a b : Outline} : ScaledOutline o a b →
      Counterpart (.border width color a) (.border (width * o.density) color b)
  | clickable {action : String} {id : TextId} : d.Names id action →
      Counterpart (.clickable action) (.onClick ⟨clickActionId, id⟩)

/-- `ms'` are the counterparts of `ms`, in some order. -/
def Recorded (ms : List Widget.Modifier) (ms' : List Modifier) : Prop :=
  ∃ l, List.Forall₂ (Counterpart o d) ms l ∧ l.Perm ms'

mutual

/-- The operations that a widget is flattened to; `align` is how it is aligned if it is a text. -/
inductive Flattened : TextAlign → Widget → List Operation → Prop where
  | column {align : TextAlign} {ms : List Widget.Modifier} {ms' : List Modifier}
      {vertical : Arrangement} {horizontal : Alignment} {ws : List Widget} {ops : List Operation} :
      Recorded o d ms ms' → FlattenedAll .leading ws ops →
        Flattened align (.column ms vertical horizontal ws)
          (.columnStart ms' horizontal vertical :: (ops ++ [.containerEnd]))
  | row {align : TextAlign} {ms : List Widget.Modifier} {ms' : List Modifier}
      {horizontal : Arrangement} {vertical : Alignment} {ws : List Widget} {ops : List Operation} :
      Recorded o d ms ms' → FlattenedAll .leading ws ops →
        Flattened align (.row ms horizontal vertical ws)
          (.rowStart ms' horizontal vertical :: (ops ++ [.containerEnd]))
  /-- Texts directly inside a container are labels. -/
  | container {align : TextAlign} {ms : List Widget.Modifier} {ms' : List Modifier}
      {alignment : Alignment} {ws : List Widget} {ops : List Operation} :
      Recorded o d ms ms' → FlattenedAll .center ws ops →
        Flattened align (.container ms alignment ws)
          (.boxStart ms' alignment alignment :: (ops ++ [.containerEnd]))
  | text {align : TextAlign} {ms : List Widget.Modifier} {ms' : List Modifier} {s : String}
      {id : TextId} {fontSize fontWeight : Single} {color : Color} :
      Recorded o d ms ms' → d.Names id s →
        Flattened align (.text ms s fontSize color fontWeight)
          [.text ⟨ms', id, color, fontSize * o.density, fontWeight, align⟩]
  | spacer {align : TextAlign} {ms : List Widget.Modifier} {ms' : List Modifier} :
      Recorded o d ms ms' →
        Flattened align (.spacer ms) [.boxStart ms' .leading .leading, .containerEnd]
  | divider {align : TextAlign} (thickness : Single) (color : Color) :
      Flattened align (.divider thickness color)
        [.boxStart [.fillMaxWidth, .height (thickness * o.density), .background color]
          .leading .leading, .containerEnd]

/-- The operations that widgets are flattened to, one after another. -/
inductive FlattenedAll : TextAlign → List Widget → List Operation → Prop where
  | nil {align : TextAlign} : FlattenedAll align [] []
  | cons {align : TextAlign} {w : Widget} {ws : List Widget} {ops ops' : List Operation} :
      Flattened align w ops → FlattenedAll align ws ops' →
        FlattenedAll align (w :: ws) (ops ++ ops')

end

end Counterparts

/-! ### Modifiers -/

section Modifiers

variable {o : Options} {d : Document} {ms₁ ms₂ : List Widget.Modifier} {ms₁' ms₂' : List Modifier}

theorem Recorded.nil : Recorded o d [] [] :=
  ⟨[], .nil, .nil⟩

theorem Recorded.single {m : Widget.Modifier} {m' : Modifier} (h : Counterpart o d m m') :
    Recorded o d [m] [m'] :=
  ⟨[m'], .cons h .nil, List.Perm.refl _⟩

theorem Recorded.append (h₁ : Recorded o d ms₁ ms₁') (h₂ : Recorded o d ms₂ ms₂') :
    Recorded o d (ms₁ ++ ms₂) (ms₁' ++ ms₂') := by
  obtain ⟨l₁, h₁, hperm₁⟩ := h₁
  obtain ⟨l₂, h₂, hperm₂⟩ := h₂
  exact ⟨l₁ ++ l₂, List.rel_append h₁ h₂, hperm₁.append hperm₂⟩

theorem Recorded.cons {m : Widget.Modifier} {m' : Modifier} (h : Counterpart o d m m')
    (h₁ : Recorded o d ms₁ ms₁') : Recorded o d (m :: ms₁) (m' :: ms₁') :=
  (Recorded.single h).append h₁

theorem Recorded.ite (c : Prop) [Decidable c] (h₁ : Recorded o d ms₁ ms₁') :
    Recorded o d (if c then ms₁ else []) (if c then ms₁' else []) := by
  split
  · exact h₁
  · exact .nil

theorem Recorded.perm (h₁ : Recorded o d ms₁ ms₁') (hperm : ms₁'.Perm ms₂') :
    Recorded o d ms₁ ms₂' := by
  obtain ⟨l, h, hl⟩ := h₁
  exact ⟨l, h, hl.trans hperm⟩

/-- A length that is configured is scaled. -/
theorem scaled_length (n : Int32) : Scaled o (Widget.length n) (o.dp n) :=
  .inl rfl

theorem scaled_zero : Scaled o .zero .zero :=
  .inr ⟨rfl, rfl⟩

theorem counterpart_symmetricPadding (horizontal vertical : Int32) :
    Counterpart o d (Widget.symmetricPadding horizontal vertical)
      (o.symmetricPadding horizontal vertical) :=
  .padding (scaled_length _) (scaled_length _) (scaled_length _) (scaled_length _)

theorem recorded_paddingUnlessEmpty (p : Padding) :
    Recorded o d (Widget.paddingUnlessEmpty p) (o.paddingUnlessEmpty p) := by
  unfold Widget.paddingUnlessEmpty Options.paddingUnlessEmpty
  split
  · exact .nil
  · exact .single (counterpart_symmetricPadding _ _)

theorem scaledOutline_rounded (radius : Int32) :
    ScaledOutline o (Widget.rounded radius) (o.rounded radius) :=
  ⟨Widget.length radius, rfl, rfl⟩

theorem recorded_borders (border : Option Border) (radius : Int32) :
    Recorded o d (Widget.borders border (Widget.rounded radius))
      (o.borders border (o.rounded radius)) := by
  cases border with
  | none => exact .nil
  | some b => exact .single (.border (Widget.length b.width) b.color (scaledOutline_rounded radius))

theorem recorded_rootModifiers (s : Screen) :
    Recorded o d (Widget.rootModifiers s) (rootModifiers o s) := by
  have hscroll := Recorded.ite (o := o) (d := d) s.scrollable (.single .verticalScroll)
  have hpadding : Counterpart o d (.padding (.all (Widget.length s.padding)))
      (.paddingAll (o.dp s.padding)) :=
    .padding (scaled_length _) (scaled_length _) (scaled_length _) (scaled_length _)
  exact (Recorded.append (.cons .fillMaxSize (.single (.background _ _))) hscroll).append
    (.single hpadding)

theorem recorded_textModifiers (t : Element.Text) :
    Recorded o d (Widget.textModifiers t) (textModifiers o t) :=
  .cons (.padding scaled_zero scaled_zero scaled_zero (scaled_length _))
    (recorded_paddingUnlessEmpty t.padding)

theorem recorded_buttonModifiers (parent : Parent) (b : Element.Button) {id : TextId}
    (hid : d.Names id b.action) :
    Recorded o d (Widget.buttonModifiers parent b)
      (buttonModifiers o parent b ⟨clickActionId, id⟩) := by
  have hwidth := Recorded.ite (o := o) (d := d) parent.stretchesButtons (.single .fillMaxWidth)
  have hclip : Recorded o d
      [.clip (Widget.rounded b.cornerRadius), .background b.background .rectangle]
      [.clip (o.rounded b.cornerRadius), .background b.background] :=
    .cons (.clip (scaledOutline_rounded _)) (.single (.background _ _))
  exact ((hwidth.append hclip).append (recorded_borders _ _)).append
    (.cons (.clickable hid) (.single (counterpart_symmetricPadding _ _)))

/-- Cards are where the two outputs differ in the order of modifiers: the border comes first in
documents and after the background in widgets. -/
theorem recorded_cardModifiers (c : Element.Card) {number : String → TextId}
    (hnumber : ∀ a ∈ c.action, d.Names (number a) a) :
    Recorded o d (Widget.cardModifiers c)
      (cardModifiers o c (c.action.map (actionNamed number))) := by
  have hborder := recorded_borders (o := o) (d := d) c.border c.cornerRadius
  have hclip := Recorded.ite (o := o) (d := d) (0 < c.cornerRadius)
    (.single (.clip (scaledOutline_rounded c.cornerRadius)))
  have hbackground : Recorded o d
      [.background c.background (Widget.rounded c.cornerRadius)] [.background c.background] :=
    .single (.background _ _)
  have haction : Recorded o d (c.action.map Widget.Modifier.clickable).toList
      ((c.action.map (actionNamed number)).map Modifier.onClick).toList := by
    cases h : c.action with
    | none => exact .nil
    | some a => exact .single (.clickable (hnumber a h))
  have hborderFirst := ((hclip.append hbackground).append hborder).perm List.perm_append_comm
  have hall := ((Recorded.single .fillMaxWidth).append hborderFirst).append <|
    haction.append (recorded_paddingUnlessEmpty c.padding)
  simpa only [Widget.cardModifiers, cardModifiers, List.append_assoc] using hall

theorem recorded_rowModifiers (paddingV : Int32) :
    Recorded o d (Widget.rowModifiers paddingV) (rowModifiers o paddingV) :=
  .cons .fillMaxWidth <|
    .single (.padding scaled_zero (scaled_length _) scaled_zero (scaled_length _))

end Modifiers

/-! ### Elements -/

theorem mem_stringsOfAll {t : String} {es : List Element} :
    t ∈ stringsOfAll es ↔ ∃ e ∈ es, t ∈ stringsOf e := by
  induction es with
  | nil => simp [stringsOfAll, Element.preorderAll]
  | cons e es ih => simp [stringsOfAll_cons, ih]

section Elements

variable (o : Options) {d : Document} {number : String → TextId}

theorem flattened_ofElements {parent : Parent} {es : List Element}
    (each : ∀ e ∈ es, Flattened o d .leading (Widget.ofElement parent e)
      (operationsOf o number parent e)) :
    FlattenedAll o d .leading (Widget.ofElements parent es)
      (operationsOfAll o number parent es) := by
  induction es with
  | nil => exact .nil
  | cons e es ih =>
    exact .cons (each e List.mem_cons_self) (ih fun e' he' => each e' (List.mem_cons_of_mem e he'))

/-- The operations of an element are its widget, flattened, if the numbers are those of the
table. -/
theorem flattened_ofElement (e : Element) (parent : Parent)
    (hnumber : ∀ t ∈ stringsOf e, d.Names (number t) t) :
    Flattened o d .leading (Widget.ofElement parent e) (operationsOf o number parent e) := by
  induction e using Element.inductionOn generalizing parent with
  | step e ih =>
    rw [stringsOf_eq] at hnumber
    have below (p : Parent) := flattened_ofElements o fun c hc => ih c hc p fun t ht =>
      hnumber t (List.mem_append_right _ (mem_stringsOfAll.mpr ⟨c, hc, ht⟩))
    have hown : ∀ t ∈ ownStrings e, d.Names (number t) t := fun t ht =>
      hnumber t (List.mem_append_left _ ht)
    cases e with
    | text t => exact .text (recorded_textModifiers t) (hown _ (List.mem_singleton.mpr rfl))
    | button b =>
      have haction := hown b.action List.mem_cons_self
      have hlabel := hown b.label (List.mem_cons_of_mem _ List.mem_cons_self)
      exact .container (recorded_buttonModifiers parent b haction)
        (.cons (.text .nil hlabel) .nil)
    | spacer height => exact .spacer (.single (.height _))
    | divider thickness color => exact .divider _ _
    | card c children =>
      have haction : ∀ a ∈ c.action, d.Names (number a) a := fun a ha =>
        hown a (Option.mem_toList.mpr ha)
      have hcolumn : Flattened o d .center
          (.column [.fillMaxWidth] .leading c.align (Widget.ofElements .column children))
          (.columnStart [.fillMaxWidth] c.align .leading ::
            (operationsOfAll o number .column children ++ [.containerEnd])) :=
        .column (.single .fillMaxWidth) (below .column)
      have hoperations : operationsOf o number parent (.card c children) =
          .boxStart (cardModifiers o c (c.action.map (actionNamed number))) .leading .leading ::
            (.columnStart [.fillMaxWidth] c.align .leading ::
              (operationsOfAll o number .column children ++ [.containerEnd]) ++ [] ++
                [.containerEnd]) := by
        simp [operationsOf]
      rw [hoperations]
      exact .container (recorded_cardModifiers c haction) (.cons hcolumn .nil)
    | row paddingV children => exact .row (recorded_rowModifiers paddingV) (below .row)

end Elements

/-! ### Screens -/

/-- The text that one element draws and how it is aligned; labels of buttons are centered. -/
def ownDrawn : Element → List (String × TextAlign)
  | .text t => [(t.text, .leading)]
  | .button b => [(b.label, .center)]
  | .spacer _ | .divider _ _ | .card _ _ | .row _ _ => []

theorem forall₂_flatMap {α β γ : Type} {R : β → γ → Prop} {f : α → List β} {g : α → List γ}
    {l : List α} (h : ∀ a ∈ l, List.Forall₂ R (f a) (g a)) :
    List.Forall₂ R (l.flatMap f) (l.flatMap g) := by
  induction l with
  | nil => exact .nil
  | cons a l ih =>
    exact List.rel_append (h a List.mem_cons_self)
      (ih fun a' ha' => h a' (List.mem_cons_of_mem a ha'))

/-- **The document of a screen is its widget tree, flattened.** Between the start and the end of the
root are the operations of the widget tree, and the texts that are drawn are those of the texts and
buttons of the screen in order, where exactly the labels of buttons are centered. -/
theorem build_flattened (o : Options) (s : Screen) :
    ∃ d inner, build .empty o s = .ok d ∧ d.operations = .rootStart :: (inner ++ [.rootEnd]) ∧
      Flattened o d .leading (Widget.ofScreen s) inner ∧
      List.Forall₂ (fun drawn run => d.Names run.text drawn.1 ∧ run.align = drawn.2)
        ((Element.preorderAll s.elements).flatMap ownDrawn) d.textRuns ∧
      (d.texts.length ≤ 2 ^ 32 → ∀ id t, d.Names id t → d.text? id = some t) := by
  have hnumber : ∀ t ∈ stringsOfAll s.elements,
      (ofScreen o s).Names (numberIn (textsAfter [] s) t) t := fun t ht =>
    names_numberIn (d := ofScreen o s) (mem_texts_ofScreen.mpr ht)
  have helements : FlattenedAll o (ofScreen o s) .leading (Widget.ofElements .column s.elements)
      (operationsOfAll o (numberIn (textsAfter [] s)) .column s.elements) :=
    flattened_ofElements o fun e he => flattened_ofElement o e .column fun t ht =>
      hnumber t (mem_stringsOfAll.mpr ⟨e, he, ht⟩)
  refine ⟨ofScreen o s, _, build_empty o s, ?_, .column (recorded_rootModifiers s) helements, ?_,
    fun h id t hid => hid.text?_eq h⟩
  · simp [ofScreen, operationsOfScreen]
  · rw [textRuns_ofScreen]
    refine forall₂_flatMap fun e he => ?_
    have hown : ∀ t ∈ ownStrings e, (ofScreen o s).Names (numberIn (textsAfter [] s) t) t :=
      fun t ht => hnumber t (List.mem_flatMap.mpr ⟨e, he, ht⟩)
    cases e with
    | text t => exact .cons ⟨hown _ (List.mem_singleton.mpr rfl), rfl⟩ .nil
    | button b => exact .cons ⟨hown _ (List.mem_cons_of_mem _ List.mem_cons_self), rfl⟩ .nil
    | spacer height => exact .nil
    | divider thickness color => exact .nil
    | card c children => exact .nil
    | row paddingV children => exact .nil

end LayoutCompiler.Document
