import LayoutCompiler.Proofs.Document.Placement

/-
Which elements fill the width of the container they are in. Cards, rows and dividers
always do, texts and spacers never do, and a button does unless it is directly inside a
row. The same is seen in the operations of a document, where the innermost opening that
is still to be ended is what an operation is directly inside of, and in the widget tree
(`fillsWidth_of_placed`).
-/

namespace LayoutCompiler

/-- Whether an element fills the width of the container it is directly inside of. -/
def Element.fillsWidthIn (parent : Parent) : Element → Bool
  | .card _ _ | .row _ _ | .divider _ _ => true
  | .button _ => parent.stretchesButtons
  | .text _ | .spacer _ => false

def ModifierKind.stretches : ModifierKind → Bool
  | fillMaxSize | fillMaxWidth => true
  | background | verticalScroll | padding | height | clip | border | click => false

section Lists

variable {α β γ : Type} {r : α → β → Prop} {q : β → γ → Prop}

theorem exists_left_of_forall₂ {as : List α} {bs : List β} (h : List.Forall₂ r as bs) {b : β}
    (hb : b ∈ bs) : ∃ a ∈ as, r a b := by
  induction h with
  | nil => cases hb
  | cons hfirst _ ih =>
    rcases List.mem_cons.mp hb with rfl | hb
    · exact ⟨_, List.mem_cons_self, hfirst⟩
    · obtain ⟨a, ha, hr⟩ := ih hb
      exact ⟨a, List.mem_cons_of_mem _ ha, hr⟩

theorem forall₂_trans {as : List α} {bs : List β} {cs : List γ} (h : List.Forall₂ r as bs)
    (h' : List.Forall₂ q bs cs) : List.Forall₂ (fun a c => ∃ b, r a b ∧ q b c) as cs := by
  induction h generalizing cs with
  | nil =>
    cases h'
    exact .nil
  | cons hfirst _ ih =>
    cases h' with
    | cons hfirst' hrest' => exact .cons ⟨_, hfirst, hfirst'⟩ (ih hrest')

end Lists

/-! ### Widgets -/

namespace Widget

theorem stretches_eq (m : Modifier) : m.stretches = m.kind.stretches := by
  cases m <;> rfl

theorem fillsWidth_eq {w : Widget} (h : ∀ thickness color, w ≠ .divider thickness color) :
    w.fillsWidth = w.chain.any ModifierKind.stretches := by
  cases w with
  | divider thickness color => exact absurd rfl (h thickness color)
  | column | row | container | text | spacer =>
    simp only [fillsWidth, chain, List.any_map]
    exact congrArg (List.any _) (funext stretches_eq)

section Modifiers

variable (border : Option Border) (outline : Outline)

theorem not_stretches_borders : (borders border outline).any Modifier.stretches = false := by
  cases border <;> rfl

theorem not_stretches_paddingUnlessEmpty (p : Padding) :
    (paddingUnlessEmpty p).any Modifier.stretches = false := by
  unfold paddingUnlessEmpty
  split <;> rfl

theorem stretches_buttonModifiers (parent : Parent) (b : Element.Button) :
    (buttonModifiers parent b).any Modifier.stretches = parent.stretchesButtons := by
  simp only [buttonModifiers, List.any_append, not_stretches_borders]
  cases parent <;> rfl

theorem fillMaxWidth_mem_buttonModifiers (parent : Parent) (b : Element.Button) :
    .fillMaxWidth ∈ (buttonModifiers parent b).map Modifier.kind ↔ parent ≠ .row := by
  cases parent <;> cases hborder : b.border <;>
    simp [buttonModifiers, Parent.stretchesButtons, borders, symmetricPadding, Modifier.kind,
      hborder]

end Modifiers

theorem fillsWidth_ofElement (parent : Parent) (e : Element) :
    (ofElement parent e).fillsWidth = e.fillsWidthIn parent := by
  cases e with
  | text t => exact not_stretches_paddingUnlessEmpty t.padding
  | button b => exact stretches_buttonModifiers parent b
  | spacer height | divider thickness color | row paddingV children => rfl
  | card c children => simp [ofElement, fillsWidth, modifiers, cardModifiers, Modifier.stretches,
      Element.fillsWidthIn]

def isBox : Widget → Bool
  | container _ _ _ => true
  | column _ _ _ _ | row _ _ _ _ | text _ _ _ _ _ | spacer _ | divider _ _ => false

def isText : Widget → Bool
  | text _ _ _ _ _ => true
  | column _ _ _ _ | row _ _ _ _ | container _ _ _ | spacer _ | divider _ _ => false

/-- Boxes are directly inside a column or a row, and texts do not fill the width. -/
structure Settled (q : Option Widget × Widget) : Prop where
  held : q.2.isBox = true → q.1.any holdsElements = true
  unfilled : q.2.isText = true → q.2.fillsWidth = false

theorem settled_column {outer : Option Widget} {ms : List Modifier} {vertical : Arrangement}
    {horizontal : Alignment} {ws : List Widget} :
    Settled (outer, column ms vertical horizontal ws) where
  held h := by cases h
  unfilled h := by cases h

theorem settled_placedAll {parent : Parent} {outer : Widget} (es : List Element)
    (each : ∀ e ∈ es, ∀ q ∈ placed (some outer) (ofElement parent e), Settled q) :
    ∀ q ∈ placedAll outer (ofElements parent es), Settled q := by
  induction es with
  | nil => exact fun q hq => absurd hq List.not_mem_nil
  | cons e es ih =>
    exact List.forall_mem_append.mpr
      ⟨each e List.mem_cons_self, ih fun e' he' => each e' (List.mem_cons_of_mem e he')⟩

theorem settled_placed (e : Element) {parent : Parent} {outer : Widget}
    (hholds : outer.holdsElements = true) :
    ∀ q ∈ placed (some outer) (ofElement parent e), Settled q := by
  induction e using Element.inductionOn generalizing parent outer with
  | step e ih =>
    have hown : Settled (some outer, ofElement parent e) := by
      refine ⟨fun _ => hholds, fun htext => ?_⟩
      cases e with
      | text t => exact fillsWidth_ofElement parent (.text t)
      | button b | spacer height | divider thickness color | card c children
      | row paddingV children => cases htext
    rw [placed_eq]
    refine List.forall_mem_cons.mpr ⟨hown, ?_⟩
    cases e with
    | text t | spacer height | divider thickness color =>
      exact fun q hq => absurd hq List.not_mem_nil
    | button b =>
      rintro q hq
      obtain rfl := List.mem_singleton.mp hq
      exact ⟨fun hbox => absurd hbox Bool.false_ne_true, fun _ => rfl⟩
    | card c children =>
      show ∀ q ∈ _ ++ [], Settled q
      rw [List.append_nil, placed_eq]
      exact List.forall_mem_cons.mpr ⟨settled_column,
        settled_placedAll children fun c hc => ih c hc rfl⟩
    | row paddingV children => exact settled_placedAll children fun c hc => ih c hc rfl

theorem settled_ofScreen (s : Screen) :
    ∀ q ∈ Widget.placed none (ofScreen s), Settled q := by
  rw [placed_eq]
  exact List.forall_mem_cons.mpr ⟨settled_column,
    settled_placedAll s.elements fun e _ => settled_placed e rfl⟩

/-- Boxes are those of elements of the screen. -/
theorem exists_element_of_isBox (s : Screen) {q : Option Widget × Widget}
    (hq : q ∈ Widget.placed none (ofScreen s)) (hbox : q.2.isBox = true) :
    ∃ p ∈ s.placed, IsPlacedFor p q :=
  exists_left_of_forall₂ (forall₂_elementsPlaced s)
    (List.mem_filter.mpr ⟨hq, (settled_ofScreen s q hq).held hbox⟩)

/-- What is centered in a box is the label of a button of the screen. -/
theorem exists_button_of_centered (s : Screen) {outer : Option Widget} {ms : List Modifier}
    {ws : List Widget} (h : (outer, container ms .center ws) ∈ Widget.placed none (ofScreen s)) :
    ∃ parent b holder, outer = some holder ∧ (holder.isRow = true ↔ parent = .row) ∧
      ms = buttonModifiers parent b := by
  obtain ⟨⟨parent, e⟩, -, hwidget, holder, houter, hrow⟩ := exists_element_of_isBox s h rfl
  cases e with
  | button b =>
    obtain ⟨rfl, -, -⟩ := container.inj hwidget
    exact ⟨parent, b, holder, houter, hrow, rfl⟩
  | card c children => cases (container.inj hwidget).2.1
  | text t | spacer height | divider thickness color | row paddingV children => cases hwidget

end Widget

/-! ### Nodes -/

namespace Document

/-- Whether a node is as wide as what it is inside of. -/
def Operation.fillsWidth (op : Operation) : Bool :=
  op.chain.any ModifierKind.stretches

def Operation.isRowStart : Operation → Bool
  | rowStart _ _ _ => true
  | rootStart | rootEnd | columnStart _ _ _ | boxStart _ _ _ | containerEnd | text _ => false

/-- Whether elements are placed directly inside of what an operation starts. -/
def Operation.holdsElements : Operation → Bool
  | columnStart _ _ _ | rowStart _ _ _ => true
  | rootStart | rootEnd | boxStart _ _ _ | containerEnd | text _ => false

/-- The nodes directly inside a column or a row. -/
def elementNodes (l : List (Option Operation × Operation)) : List (Option Operation × Operation) :=
  l.filter fun p => p.1.any Operation.holdsElements

/-- The node of an element, inside a row if and only if the element is. -/
def IsNodeFor (p : Parent × Element) (r : Option Operation × Operation) : Prop :=
  SameNode (Widget.ofElement p.1 p.2) r.2 ∧
    ∃ start, r.1 = some start ∧ (start.isRowStart = true ↔ p.1 = .row)

namespace SameNode

variable {w : Widget} {op : Operation}

theorem isRowStart_eq (h : SameNode w op) : op.isRowStart = w.isRow := by
  cases h <;> rfl

theorem holdsElements_eq (h : SameNode w op) : op.holdsElements = w.holdsElements := by
  cases h <;> rfl

theorem fillsWidth_eq (h : SameNode w op) : op.fillsWidth = w.fillsWidth := by
  cases h with
  | column hchain | row hchain | button hchain | text hchain | spacer hchain =>
    rw [Widget.fillsWidth_eq (by simp)]
    exact congrArg (List.any · ModifierKind.stretches) hchain
  | card hsurface hborder hrest hwidget hnode =>
    -- Wherever the border is, the width comes first.
    rw [Widget.fillsWidth_eq (by simp), Operation.fillsWidth, Widget.chain, Operation.chain]
    simp only [Widget.modifiers, Operation.modifiers, hwidget, hnode]
    rfl
  | divider hchain =>
    rw [Operation.fillsWidth, Operation.chain]
    simp only [Operation.modifiers, hchain]
    rfl

end SameNode

theorem SamePlace.sameNode {a : Option Widget × Widget} {b : Option Operation × Operation}
    (h : SamePlace a b) : SameNode a.2 b.2 := by
  cases h with
  | root hsame => exact hsame
  | inside _ hsame => exact hsame

theorem SamePlace.holdsElements_iff {a : Option Widget × Widget}
    {b : Option Operation × Operation} (h : SamePlace a b) :
    a.1.any Widget.holdsElements = true ↔ b.1.any Operation.holdsElements = true := by
  cases h with
  | root => exact Iff.rfl
  | inside houter _ => exact Bool.eq_iff_iff.mp houter.holdsElements_eq.symm

theorem SamePlace.isNodeFor {p : Parent × Element} {a : Option Widget × Widget}
    {b : Option Operation × Operation} (h : SamePlace a b) (hp : Widget.IsPlacedFor p a) :
    IsNodeFor p b := by
  obtain ⟨hwidget, holder, houter, hrow⟩ := hp
  refine ⟨hwidget ▸ h.sameNode, ?_⟩
  cases h with
  | root => cases houter
  | @inside outer w start op hsame _ =>
    obtain rfl := Option.some.inj houter
    exact ⟨start, rfl, by rw [hsame.isRowStart_eq, hrow]⟩

section Screens

variable (o : Options) (s : Screen)

/-- The nodes directly inside a column or a row are those of the elements of the screen. -/
theorem forall₂_elementNodes :
    List.Forall₂ IsNodeFor s.placed (elementNodes (nodesIn (ofScreen o s).operations)) := by
  have hnodes : List.Forall₂ SamePlace
      (Widget.elementsPlaced (Widget.placed none (Widget.ofScreen s)))
      (elementNodes (nodesIn (ofScreen o s).operations)) :=
    List.rel_filter (fun _ _ h => h.holdsElements_iff) (forall₂_nodesIn_ofScreen o s)
  exact (forall₂_trans (Widget.forall₂_elementsPlaced s) hnodes).imp
    fun _ _ ⟨_, hplaced, hsame⟩ => hsame.isNodeFor hplaced

/-- A box whose content is centered has the full width unless what it is directly inside of is a
row. -/
theorem fillMaxWidth_mem_iff {front back : List Operation} {ms : List Modifier}
    (h : (ofScreen o s).operations = front ++ .boxStart ms .center .center :: back) :
    ∃ start, innermost front = some start ∧ (.fillMaxWidth ∈ ms ↔ start.isRowStart = false) := by
  have hnode : (innermost front, .boxStart ms .center .center) ∈
      nodesIn (ofScreen o s).operations :=
    mem_nodesFrom.mpr ⟨rfl, front, back, h, rfl⟩
  obtain ⟨⟨outer, w⟩, hplaced, hplace⟩ :=
    exists_left_of_forall₂ (forall₂_nodesIn_ofScreen o s) hnode
  have hsame := hplace.sameNode
  cases hsame with
  | @button ms' _ ws hchain =>
    obtain ⟨parent, b, holder, rfl, hrow, rfl⟩ := Widget.exists_button_of_centered s hplaced
    have hwidth : .fillMaxWidth ∈ ms ↔ .fillMaxWidth ∈ ms.map Modifier.kind := by
      refine ⟨List.mem_map_of_mem, fun hkind => ?_⟩
      obtain ⟨m, hm, hm'⟩ := List.mem_map.mp hkind
      cases m <;> cases hm'
      exact hm
    generalize hinnermost : innermost front = start? at hplace ⊢
    cases hplace with
    | @inside _ _ start _ houter _ =>
      refine ⟨start, rfl, ?_⟩
      rw [hwidth, hchain, Widget.fillMaxWidth_mem_buttonModifiers, houter.isRowStart_eq,
        ← Bool.not_eq_true, hrow]

/-- No text of the document has the full width, be it an element or the label of a button. -/
theorem fillsWidth_text {run : TextRun} (h : .text run ∈ (ofScreen o s).operations) :
    (Operation.text run).fillsWidth = false := by
  obtain ⟨front, back, hoperations⟩ := List.append_of_mem h
  have hnode : (innermost front, .text run) ∈ nodesIn (ofScreen o s).operations :=
    mem_nodesFrom.mpr ⟨rfl, front, back, hoperations, rfl⟩
  obtain ⟨⟨outer, w⟩, hplaced, hplace⟩ :=
    exists_left_of_forall₂ (forall₂_nodesIn_ofScreen o s) hnode
  have hsame := hplace.sameNode
  have htext : w.isText = true := by
    cases hsame
    rfl
  exact hsame.fillsWidth_eq.trans ((Widget.settled_ofScreen s _ hplaced).unfilled htext)

/-- In the widget tree, a box whose content is centered has the full width unless its parent is a
row. -/
theorem fillsWidth_iff_of_centered {outer : Option Widget} {ms : List Widget.Modifier}
    {ws : List Widget}
    (h : (outer, .container ms .center ws) ∈ Widget.placed none (Widget.ofScreen s)) :
    ∃ parent, outer = some parent ∧
      ((Widget.container ms .center ws).fillsWidth = true ↔ parent.isRow = false) := by
  obtain ⟨parent, b, holder, rfl, hrow, rfl⟩ := Widget.exists_button_of_centered s h
  refine ⟨holder, rfl, ?_⟩
  have hfills : (Widget.container (Widget.buttonModifiers parent b) .center ws).fillsWidth =
      parent.stretchesButtons := Widget.stretches_buttonModifiers parent b
  rw [hfills, ← Bool.not_eq_true, hrow]
  cases parent <;> simp [Parent.stretchesButtons]

end Screens

/-- **Filling the width.** In the document of a screen, the box of a button has the full width if
and only if the innermost container that is still to be ended before it is not a row; in the widget
tree, if and only if its parent is not a row. Every element of the screen has a widget and a node,
which are inside a row if and only if the element is, and both fill the width if and only if the
element is a card, a row or a divider, or a button that is not directly inside a row. Labels of
buttons do not fill the width either, so no text does. -/
theorem fillsWidth_of_placed (o : Options) (s : Screen) :
    ∃ d, build .empty o s = .ok d ∧
      (∀ front ms back, d.operations = front ++ .boxStart ms .center .center :: back →
        ∃ start, innermost front = some start ∧
          (.fillMaxWidth ∈ ms ↔ start.isRowStart = false)) ∧
      (∀ outer ms ws,
        (outer, .container ms .center ws) ∈ Widget.placed none (Widget.ofScreen s) →
          ∃ parent, outer = some parent ∧
            ((Widget.container ms .center ws).fillsWidth = true ↔ parent.isRow = false)) ∧
      (∀ run, .text run ∈ d.operations → (Operation.text run).fillsWidth = false) ∧
      (∀ q ∈ Widget.placed none (Widget.ofScreen s), q.2.isText = true →
        q.2.fillsWidth = false) ∧
      List.Forall₂ (fun p q => Widget.IsPlacedFor p q ∧ q.2.fillsWidth = p.2.fillsWidthIn p.1)
        s.placed (Widget.elementsPlaced (Widget.placed none (Widget.ofScreen s))) ∧
      List.Forall₂ (fun p r => IsNodeFor p r ∧ r.2.fillsWidth = p.2.fillsWidthIn p.1)
        s.placed (elementNodes (nodesIn d.operations)) := by
  refine ⟨ofScreen o s, build_empty o s, fun front ms back => fillMaxWidth_mem_iff o s,
    fun outer ms ws => fillsWidth_iff_of_centered s, fun run => fillsWidth_text o s,
    fun q hq => (Widget.settled_ofScreen s q hq).unfilled, ?_, ?_⟩
  · refine (Widget.forall₂_elementsPlaced s).imp fun p q hplaced => ⟨hplaced, ?_⟩
    rw [hplaced.1, Widget.fillsWidth_ofElement]
  · refine (forall₂_elementNodes o s).imp fun p r hnode => ⟨hnode, ?_⟩
    rw [hnode.1.fillsWidth_eq, Widget.fillsWidth_ofElement]

end Document

end LayoutCompiler
