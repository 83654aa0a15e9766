import LayoutCompiler.Proofs.Document.Placement

/-
The order of modifiers. They apply from the outermost one, so their order is part of
what they mean. Node by node, a document has modifiers of the same kinds in the same
order as the widget tree, with one exception: the border of a card is outside of the
clip and the background in the document, and inside of them in the widget tree
(`modifiers_in_order_iff`). Dividers have no modifiers of their own as widgets.
-/

namespace LayoutCompiler

namespace Widget

/-- Whether a widget is the box of a card that has a border. -/
def isBorderedCard : Widget → Bool
  | container modifiers .leading _ => (modifiers.map Modifier.kind).contains .border
  | _ => false

def isDivider : Widget → Bool
  | divider _ _ => true
  | column _ _ _ _ | row _ _ _ _ | container _ _ _ | text _ _ _ _ _ | spacer _ => false

end Widget

namespace Document

/-- The modifiers of a widget and its node are in the same order, unless it is a card with a
border. -/
theorem SameNode.chain_eq_iff {w : Widget} {op : Operation} (h : SameNode w op)
    (hdivider : w.isDivider = false) : op.chain = w.chain ↔ w.isBorderedCard = false := by
  cases h with
  | column hchain | row hchain | button hchain | text hchain | spacer hchain =>
    exact iff_of_true hchain rfl
  | @card ms ms' ws surface border rest hsurface hborder hrest hwidget hnode =>
    have hwidget : (Widget.container ms .leading ws).chain =
        .fillMaxWidth :: (surface ++ border ++ rest) := hwidget
    have hnode : (Operation.boxStart ms' .leading .leading).chain =
        .fillMaxWidth :: (border ++ surface ++ rest) := hnode
    have hcard : (Widget.container ms .leading ws).isBorderedCard =
        (ModifierKind.fillMaxWidth :: (surface ++ border ++ rest)).contains .border :=
      congrArg (List.contains · ModifierKind.border) hwidget
    rw [hcard, hwidget, hnode]
    rcases hborder with rfl | rfl
    · -- Without a border there is nothing to be moved.
      rcases hsurface with rfl | rfl <;> simp [hrest]
    · -- The border is second in the node, where the widget has the first part of its surface.
      rcases hsurface with rfl | rfl <;> simp
  | divider hchain => cases hdivider

/-- **The order of modifiers.** The nodes of a document are the widgets of the widget tree in the
same places. What is not a divider has modifiers of the same kinds in both, and in the same order if
and only if it is not a card with a border; there the border is moved from after the surface to
before it. -/
theorem modifiers_in_order_iff (o : Options) (s : Screen) :
    ∃ d, build .empty o s = .ok d ∧
      List.Forall₂ (fun a b => SamePlace a b ∧ SameNode a.2 b.2 ∧
          (a.2.isDivider = false → (b.2.chain = a.2.chain ↔ a.2.isBorderedCard = false)))
        (Widget.placed none (Widget.ofScreen s)) (nodesIn d.operations) := by
  refine ⟨ofScreen o s, build_empty o s, (forall₂_nodesIn_ofScreen o s).imp fun a b hplace => ?_⟩
  have hsame : SameNode a.2 b.2 := by
    cases hplace with
    | root hsame => exact hsame
    | inside _ hsame => exact hsame
  exact ⟨hplace, hsame, hsame.chain_eq_iff⟩

/-- A card with a border and round corners. -/
def borderedCard : Screen where
  background := .black
  scrollable := false
  padding := 0
  elements := [.card ⟨8, ⟨0xFFFFFFFF⟩, ⟨16, 16⟩, some ⟨2, .black⟩, .center, some "open"⟩ []]

/-- The document draws the border around what is clipped, and the widget tree inside of it. -/
theorem borderedCard_order :
    ∃ d, build .empty {} borderedCard = .ok d ∧
      (nodesIn d.operations).map (fun b => b.2.chain) =
        [[.fillMaxSize, .background, .padding],
          [.fillMaxWidth, .border, .clip, .background, .click, .padding], [.fillMaxWidth]] ∧
      (Widget.placed none (Widget.ofScreen borderedCard)).map (fun a => a.2.chain) =
        [[.fillMaxSize, .background, .padding],
          [.fillMaxWidth, .clip, .background, .border, .click, .padding], [.fillMaxWidth]] :=
  ⟨ofScreen {} borderedCard, build_empty {} borderedCard, by decide +kernel, by decide +kernel⟩

end Document

end LayoutCompiler
