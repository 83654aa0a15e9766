import LayoutCompiler.Proofs.Document.Extension
import LayoutCompiler.Proofs.Document.Unmatched
import LayoutCompiler.Proofs.Widget.Placement

/-
The nodes of a document, one after another, each with the innermost opening before it
that is still to be ended. They are read off the operations alone, and they are the
widgets of the widget tree, in the same order and directly inside of the same ones
(`forall₂_nodesIn_ofScreen`). `SameNode` says what a widget and its node have in common;
the kinds of their modifiers come in the same order, but for the border of a card, which
comes before its surface in the document and after it in the widget.
-/

namespace LayoutCompiler

/-! ### Kinds of modifiers -/

/-- What a modifier does, without lengths, colors, outlines and actions. -/
inductive ModifierKind where
  | fillMaxSize
  | fillMaxWidth
  | background
  | verticalScroll
  | padding
  | height
  | clip
  | border
  | click
  deriving DecidableEq, Repr

def Widget.Modifier.kind : Widget.Modifier → ModifierKind
  | fillMaxSize => .fillMaxSize
  | fillMaxWidth => .fillMaxWidth
  | background _ _ => .background
  | verticalScroll => .verticalScroll
  | padding _ => .padding
  | height _ => .height
  | clip _ => .clip
  | border _ _ _ => .border
  | clickable _ => .click

/-- The kinds of the modifiers of a widget, outermost first. -/
def Widget.chain (w : Widget) : List ModifierKind :=
  w.modifiers.map Widget.Modifier.kind

namespace Document

def Modifier.kind : Modifier → ModifierKind
  | fillMaxSize => .fillMaxSize
  | fillMaxWidth => .fillMaxWidth
  | background _ => .background
  | verticalScroll => .verticalScroll
  | padding _ _ _ _ => .padding
  | height _ => .height
  | clip _ => .clip
  | border _ _ _ => .border
  | onClick _ => .click

/-- The kinds of the modifiers of a node, outermost first. -/
def Operation.chain (op : Operation) : List ModifierKind :=
  op.modifiers.map Modifier.kind

section Chains

variable (o : Options)

theorem chain_borders (border : Option Border) (a b : Outline) :
    (o.borders border a).map Modifier.kind =
      (Widget.borders border b).map Widget.Modifier.kind := by
  cases border <;> rfl

theorem chain_paddingUnlessEmpty (p : Padding) :
    (o.paddingUnlessEmpty p).map Modifier.kind =
      (Widget.paddingUnlessEmpty p).map Widget.Modifier.kind := by
  unfold Options.paddingUnlessEmpty Widget.paddingUnlessEmpty
  split <;> rfl

theorem chain_rootModifiers (s : Screen) :
    (rootModifiers o s).map Modifier.kind =
      (Widget.rootModifiers s).map Widget.Modifier.kind := by
  unfold rootModifiers Widget.rootModifiers
  split <;> rfl

theorem chain_textModifiers (t : Element.Text) :
    (textModifiers o t).map Modifier.kind =
      (Widget.textModifiers t).map Widget.Modifier.kind :=
  congrArg (ModifierKind.padding :: ·) (chain_paddingUnlessEmpty o t.padding)

theorem chain_buttonModifiers (parent : Parent) (b : Element.Button) (action : HostAction) :
    (buttonModifiers o parent b action).map Modifier.kind =
      (Widget.buttonModifiers parent b).map Widget.Modifier.kind := by
  have hborder := chain_borders o b.border (o.rounded b.cornerRadius)
    (Widget.rounded b.cornerRadius)
  unfold buttonModifiers Widget.buttonModifiers
  simp only [List.map_append, hborder]
  split <;> rfl

end Chains

/-! ### Nodes -/

/-- Whether an operation is a node: it starts a container or draws a text. -/
def Operation.isNode : Operation → Bool
  | columnStart _ _ _ | rowStart _ _ _ | boxStart _ _ _ | text _ => true
  | rootStart | rootEnd | containerEnd => false

/-- The innermost opening that is still to be ended. -/
def innermost (ops : List Operation) : Option Operation :=
  (unmatched ops).getLast?

/-- The nodes among operations that follow others, each with what it is directly inside of. -/
def nodesFrom (before : List Operation) : List Operation → List (Option Operation × Operation)
  | [] => []
  | op :: ops =>
    (if op.isNode then [(innermost before, op)] else []) ++ nodesFrom (before ++ [op]) ops

/-- The nodes among operations, each with what it is directly inside of. -/
def nodesIn (ops : List Operation) : List (Option Operation × Operation) :=
  nodesFrom [] ops

theorem nodesFrom_append (before ops ops' : List Operation) :
    nodesFrom before (ops ++ ops') = nodesFrom before ops ++ nodesFrom (before ++ ops) ops' := by
  induction ops generalizing before with
  | nil => simp [nodesFrom]
  | cons op ops ih => simp [nodesFrom, ih]

/-- The nodes of a container are its start and those inside it. -/
theorem nodesFrom_enclosed (before : List Operation) {start : Operation}
    (hstart : start.isNode = true) (ops : List Operation) :
    nodesFrom before (start :: (ops ++ [.containerEnd])) =
      (innermost before, start) :: nodesFrom (before ++ [start]) ops := by
  rw [nodesFrom, nodesFrom_append, if_pos hstart]
  exact congrArg _ (List.append_nil _)

theorem mem_nodesFrom {before ops : List Operation} {outer : Option Operation} {op : Operation} :
    (outer, op) ∈ nodesFrom before ops ↔
      op.isNode = true ∧ ∃ front back, ops = front ++ op :: back ∧
        outer = innermost (before ++ front) := by
  induction ops generalizing before with
  | nil => simp [nodesFrom]
  | cons first rest ih =>
    rw [nodesFrom, List.mem_append, ih]
    constructor
    · rintro (h | ⟨hnode, front, back, rfl, houter⟩)
      · split at h
        case isTrue hnode =>
          obtain ⟨rfl, rfl⟩ := Prod.mk.inj (List.mem_singleton.mp h)
          exact ⟨hnode, [], rest, rfl, by rw [List.append_nil]⟩
        case isFalse => exact absurd h List.not_mem_nil
      · exact ⟨hnode, first :: front, back, rfl, by rw [houter, List.append_assoc]; rfl⟩
    · rintro ⟨hnode, front, back, hops, houter⟩
      cases front with
      | nil =>
        obtain ⟨rfl, rfl⟩ := List.cons.inj hops
        rw [List.append_nil] at houter
        exact .inl (by rw [if_pos hnode, houter]; exact List.mem_singleton_self _)
      | cons first' front =>
        obtain ⟨rfl, rfl⟩ := List.cons.inj hops
        exact .inr ⟨hnode, front, back, rfl, by rw [houter, List.append_assoc]; rfl⟩

/-! ### What nodes are inside of -/

/-- After these operations, what comes next is directly inside of `start`. -/
def Inside (start : Operation) (before : List Operation) : Prop :=
  ∃ kind outer inner, start.opened? = some kind ∧ WellNested inner ∧
    before = outer ++ start :: inner

namespace Inside

variable {start : Operation} {before : List Operation}

theorem innermost_eq (h : Inside start before) : innermost before = some start := by
  obtain ⟨kind, outer, inner, hstart, hinner, rfl⟩ := h
  rw [innermost, unmatched_append_start hstart hinner, List.getLast?_concat]

theorem append (h : Inside start before) {ops : List Operation} (hops : WellNested ops) :
    Inside start (before ++ ops) := by
  obtain ⟨kind, outer, inner, hstart, hinner, rfl⟩ := h
  exact ⟨kind, outer, inner ++ ops, hstart, hinner.append hops, by simp⟩

theorem of_start {kind : Open} (hstart : start.opened? = some kind) (before : List Operation) :
    Inside start (before ++ [start]) :=
  ⟨kind, before, [], hstart, .nil, rfl⟩

end Inside

/-! ### Widgets and their nodes -/

/-- A widget and its node: both have the same kind and place what is inside them in the same way.
Their modifiers are of the same kinds in the same order, but for cards, where the border is first
after the width in the document, and only after the surface in the widget. A divider has no
modifiers as a widget. -/
inductive SameNode : Widget → Operation → Prop where
  | column {ms : List Widget.Modifier} {ms' : List Modifier} {vertical : Arrangement}
      {horizontal : Alignment} {ws : List Widget} :
      ms'.map Modifier.kind = ms.map Widget.Modifier.kind →
        SameNode (.column ms vertical horizontal ws) (.columnStart ms' horizontal vertical)
  | row {ms : List Widget.Modifier} {ms' : List Modifier} {horizontal : Arrangement}
      {vertical : Alignment} {ws : List Widget} :
      ms'.map Modifier.kind = ms.map Widget.Modifier.kind →
        SameNode (.row ms horizontal vertical ws) (.rowStart ms' horizontal vertical)
  | button {ms : List Widget.Modifier} {ms' : List Modifier} {ws : List Widget} :
      ms'.map Modifier.kind = ms.map Widget.Modifier.kind →
        SameNode (.container ms .center ws) (.boxStart ms' .center .center)
  | card {ms : List Widget.Modifier} {ms' : List Modifier} {ws : List Widget}
      {surface border rest : List ModifierKind} :
      surface = [.background] ∨ surface = [.clip, .background] →
        border = [] ∨ border = [.border] → .border ∉ rest →
        ms.map Widget.Modifier.kind = .fillMaxWidth :: (surface ++ border ++ rest) →
        ms'.map Modifier.kind = .fillMaxWidth :: (border ++ surface ++ rest) →
        SameNode (.container ms .leading ws) (.boxStart ms' .leading .leading)
  | text {ms : List Widget.Modifier} {run : TextRun} {s : String} {fontSize : Number.Single}
      {color : Color} {fontWeight : Number.Single} :
      run.modifiers.map Modifier.kind = ms.map Widget.Modifier.kind →
        SameNode (.text ms s fontSize color fontWeight) (.text run)
  | spacer {ms : List Widget.Modifier} {ms' : List Modifier} :
      ms'.map Modifier.kind = ms.map Widget.Modifier.kind →
        SameNode (.spacer ms) (.boxStart ms' .leading .leading)
  | divider {thickness : Number.Single} {color : Color} {ms' : List Modifier} :
      ms'.map Modifier.kind = [.fillMaxWidth, .height, .background] →
        SameNode (.divider thickness color) (.boxStart ms' .leading .leading)

/-- A widget and its node in the same place: the root, or directly inside of a widget and its
node. -/
inductive SamePlace : Option Widget × Widget → Option Operation × Operation → Prop where
  | root {w : Widget} {op : Operation} : SameNode w op → SamePlace (none, w) (some .rootStart, op)
  | inside {outer w : Widget} {start op : Operation} : SameNode outer start → SameNode w op →
      SamePlace (some outer, w) (some start, op)

theorem SamePlace.of_inside {outer w : Widget} {start op : Operation} {before : List Operation}
    (hbefore : Inside start before) (houter : SameNode outer start) (hsame : SameNode w op) :
    SamePlace (some outer, w) (innermost before, op) := by
  rw [hbefore.innermost_eq]
  exact .inside houter hsame

section Screens

variable (o : Options) (number : String → TextId)

theorem sameNode_card (c : Element.Card) (ws : List Widget) :
    SameNode (.container (Widget.cardModifiers c) .leading ws)
      (.boxStart (cardModifiers o c (c.action.map (actionNamed number))) .leading .leading) := by
  have hborder := chain_borders o c.border (o.rounded c.cornerRadius)
    (Widget.rounded c.cornerRadius)
  have hclick : ((c.action.map (actionNamed number)).map Modifier.onClick).toList.map
      Modifier.kind = (c.action.map Widget.Modifier.clickable).toList.map Widget.Modifier.kind := by
    cases c.action <;> rfl
  refine @SameNode.card _ _ ws ((if 0 < c.cornerRadius then [.clip] else []) ++ [.background])
    ((Widget.borders c.border (Widget.rounded c.cornerRadius)).map Widget.Modifier.kind)
    ((c.action.map Widget.Modifier.clickable).toList.map Widget.Modifier.kind ++
      (Widget.paddingUnlessEmpty c.padding).map Widget.Modifier.kind) ?_ ?_ ?_ ?_ ?_
  · split
    · exact .inr rfl
    · exact .inl rfl
  · cases c.border
    · exact .inl rfl
    · exact .inr rfl
  · unfold Widget.paddingUnlessEmpty
    cases c.action <;> split <;> simp [Widget.Modifier.kind, Widget.symmetricPadding]
  · unfold Widget.cardModifiers
    split <;> simp [Widget.Modifier.kind]
  · unfold cardModifiers
    simp only [List.map_append, hborder, hclick, chain_paddingUnlessEmpty]
    split <;> simp [Modifier.kind]

theorem samePlace_elements {parent : Parent} {es : List Element} {outer : Widget}
    {start : Operation} {before : List Operation} (hbefore : Inside start before)
    (each : ∀ e ∈ es, ∀ before, Inside start before →
      List.Forall₂ SamePlace (Widget.placed (some outer) (Widget.ofElement parent e))
        (nodesFrom before (operationsOf o number parent e))) :
    List.Forall₂ SamePlace (Widget.placedAll outer (Widget.ofElements parent es))
      (nodesFrom before (operationsOfAll o number parent es)) := by
  induction es generalizing before with
  | nil => exact .nil
  | cons e es ih =>
    rw [Widget.ofElements, Widget.placedAll, operationsOfAll, nodesFrom_append]
    have hafter := hbefore.append (wellNested_operationsOf o number e parent)
    exact List.rel_append (each e List.mem_cons_self before hbefore)
      (ih hafter fun e' he' => each e' (List.mem_cons_of_mem e he'))

/-- The nodes of an element are the widgets of its widget tree. -/
theorem samePlace_element (e : Element) {parent : Parent} {outer : Widget} {start : Operation}
    (houter : SameNode outer start) {before : List Operation} (hbefore : Inside start before) :
    List.Forall₂ SamePlace (Widget.placed (some outer) (Widget.ofElement parent e))
      (nodesFrom before (operationsOf o number parent e)) := by
  induction e using Element.inductionOn generalizing parent outer start before with
  | step e ih =>
    have hplace {w : Widget} {op : Operation} (hsame : SameNode w op) :
        SamePlace (some outer, w) (innermost before, op) :=
      .of_inside hbefore houter hsame
    rw [Widget.placed_eq]
    cases e with
    | text t => exact .cons (hplace (.text (chain_textModifiers o t))) .nil
    | button b =>
      have hbox : SameNode (Widget.ofElement parent (.button b)) (.boxStart
          (buttonModifiers o parent b (actionNamed number b.action)) .center .center) :=
        .button (chain_buttonModifiers o parent b _)
      exact .cons (hplace hbox)
        (.cons (.of_inside (Inside.of_start rfl before) hbox (.text rfl)) .nil)
    | spacer height => exact .cons (hplace (.spacer rfl)) .nil
    | divider thickness color => exact .cons (hplace (.divider rfl)) .nil
    | card c children =>
      have hcard := sameNode_card o number c
        [.column [.fillMaxWidth] .leading c.align (Widget.ofElements .column children)]
      have hcolumn : SameNode
          (.column [.fillMaxWidth] .leading c.align (Widget.ofElements .column children))
          (.columnStart [.fillMaxWidth] c.align .leading) := .column rfl
      have hoperations : operationsOf o number parent (.card c children) =
          .boxStart (cardModifiers o c (c.action.map (actionNamed number))) .leading .leading ::
            ((.columnStart [.fillMaxWidth] c.align .leading ::
              (operationsOfAll o number .column children ++ [.containerEnd])) ++
                [.containerEnd]) := by
        simp [operationsOf]
      rw [hoperations, nodesFrom_enclosed before rfl, nodesFrom_enclosed _ rfl]
      refine .cons (hplace hcard) ?_
      show List.Forall₂ SamePlace (_ ++ []) _
      rw [List.append_nil, Widget.placed_eq]
      exact .cons (.of_inside (Inside.of_start rfl before) hcard hcolumn)
        (samePlace_elements o number (Inside.of_start rfl _)
          fun e he before hbefore => ih e he hcolumn hbefore)
    | row paddingV children =>
      have hrow : SameNode (Widget.ofElement parent (.row paddingV children))
          (.rowStart (rowModifiers o paddingV) .spaceEvenly .center) := .row rfl
      rw [operationsOf, nodesFrom_enclosed before rfl]
      exact .cons (hplace hrow) (samePlace_elements o number (Inside.of_start rfl before)
        fun c hc before hbefore => ih c hc hrow hbefore)

/-- The nodes of a document are the widgets of the widget tree, in the same places. -/
theorem forall₂_nodesIn_ofScreen (s : Screen) :
    List.Forall₂ SamePlace (Widget.placed none (Widget.ofScreen s))
      (nodesIn (ofScreen o s).operations) := by
  have hroot : SameNode (Widget.ofScreen s)
      (.columnStart (rootModifiers o s) .center s.verticalArrangement) :=
    .column (chain_rootModifiers o s)
  have hoperations : (ofScreen o s).operations = [.rootStart] ++
      (.columnStart (rootModifiers o s) .center s.verticalArrangement ::
        (operationsOfAll o (numberIn (textsAfter [] s)) .column s.elements ++
          [.containerEnd])) ++ [.rootEnd] := by
    simp [ofScreen, operationsOfScreen]
  rw [hoperations, nodesIn, nodesFrom_append, nodesFrom_append, nodesFrom_enclosed _ rfl,
    Widget.placed_eq]
  show List.Forall₂ SamePlace _ (_ ++ [])
  rw [List.append_nil]
  exact .cons (.root hroot) (samePlace_elements o _ (Inside.of_start rfl [.rootStart])
    fun e _ before hbefore => samePlace_element o _ e hroot hbefore)

end Screens

end Document

end LayoutCompiler
