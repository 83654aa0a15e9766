import LayoutCompiler.Proofs.Document.Numbering

/-
What the operations of a screen refer to. Along the operations of a screen, the numbers
that they refer to are those of the strings of the screen, in the order in which the
elements are met (`references_operationsOfScreen`). The table has each of these strings
once, at its first place, so every reference means its string and every string of the
table is referred to (`texts_referenced`).
-/

namespace LayoutCompiler.Document

/-- The numbers of texts that an operation refers to: first those of its clicks, then that of the
text it draws. -/
def Operation.references (op : Operation) : List TextId :=
  (op.modifiers.filterMap Modifier.action?).map HostAction.name ++ (op.run?.map TextRun.text).toList

section Operations

variable (o : Options) (number : String → TextId)

theorem references_text (t : Element.Text) (id : TextId) :
    (Operation.text (runOfText o id t)).references = [id] := by
  simp [Operation.references, Operation.modifiers, Operation.run?, runOfText,
    actions_textModifiers]

theorem references_label (b : Element.Button) (id : TextId) :
    (Operation.text (runOfLabel o id b)).references = [id] :=
  rfl

theorem references_button (parent : Parent) (b : Element.Button) (action : HostAction) :
    (Operation.boxStart (buttonModifiers o parent b action) .center .center).references =
      [action.name] := by
  simp [Operation.references, Operation.modifiers, Operation.run?, actions_buttonModifiers]

theorem references_card (c : Element.Card) (action : Option HostAction) :
    (Operation.boxStart (cardModifiers o c action) .leading .leading).references =
      (action.map HostAction.name).toList := by
  cases action <;> simp [Operation.references, Operation.modifiers, Operation.run?,
    actions_cardModifiers]

theorem references_root (s : Screen) :
    (Operation.columnStart (rootModifiers o s) .center s.verticalArrangement).references = [] := by
  simp [Operation.references, Operation.modifiers, Operation.run?, actions_rootModifiers]

/-- An element refers to its own strings before its children refer to theirs. -/
theorem references_opening (parent : Parent) (e : Element) :
    (opening o number parent e).flatMap Operation.references = (ownStrings e).map number := by
  cases e with
  | text t => exact congrArg (· ++ []) (references_text o t (number t.text))
  | button b =>
    have hbox := references_button o parent b (actionNamed number b.action)
    have hlabel := references_label o b (number b.label)
    simp only [opening, operationsOf, List.flatMap_cons, hbox, hlabel, ownStrings]
    rfl
  | spacer height => rfl
  | divider thickness color => rfl
  | card c children =>
    have hbox := references_card o c (c.action.map (actionNamed number))
    simp only [opening, List.flatMap_cons, hbox, ownStrings]
    cases c.action <;> rfl
  | row paddingV children => rfl

/-- The references of a screen are the numbers of its strings, in order. -/
theorem references_operationsOfScreen (s : Screen) :
    (operationsOfScreen o number s).flatMap Operation.references =
      (stringsOfAll s.elements).map number := by
  have hscreen := flatMap_operationsOfScreen o number (f := Operation.references) rfl
    (references_opening o number) s ⟨rfl, rfl⟩ (references_root o s)
  rw [hscreen, stringsOfAll, List.map_flatMap]

end Operations

section Table

variable {o : Options} {s : Screen}
  (hdistinct : (stringsOfAll s.elements).eraseDups.length < 2 ^ 32)

theorem texts_ofScreen_eq_eraseDups (o : Options) (s : Screen) :
    (ofScreen o s).texts = (stringsOfAll s.elements).eraseDups :=
  withTexts_nil _

include hdistinct

/-- The references of a document of a screen mean the strings of the screen, in order. -/
theorem map_text?_references :
    ((ofScreen o s).operations.flatMap Operation.references).map (ofScreen o s).text? =
      (stringsOfAll s.elements).map some := by
  have htexts := texts_ofScreen_eq_eraseDups o s
  have hlength : (ofScreen o s).texts.length ≤ 2 ^ 32 := Nat.le_of_lt (htexts ▸ hdistinct)
  have hreferences := references_operationsOfScreen o (numberIn (ofScreen o s).texts) s
  refine (congrArg (List.map (ofScreen o s).text?) hreferences).trans ?_
  rw [List.map_map]
  refine List.map_congr_left fun t ht => ?_
  exact getElem?_numberIn hlength (mem_texts_ofScreen.mpr ht)

end Table

/-- **The table of a screen.** The document of a screen has each of its strings once, in the order
of their first occurrences when the elements are walked through. Looked up one after another, the
numbers that its operations refer to give the strings of this walk; hence none of them is out of
range, and every string of the table is referred to. -/
theorem texts_referenced (o : Options) (s : Screen)
    (hdistinct : (stringsOfAll s.elements).eraseDups.length < 2 ^ 32) :
    ∃ d, build .empty o s = .ok d ∧
      d.texts = (stringsOfAll s.elements).eraseDups ∧ d.texts.Nodup ∧
      (d.operations.flatMap Operation.references).map d.text? =
        (stringsOfAll s.elements).map some ∧
      (∀ op ∈ d.operations, ∀ id ∈ op.references, id.toNat < d.texts.length) ∧
      ∀ t ∈ d.texts, ∃ op ∈ d.operations, ∃ id ∈ op.references, d.text? id = some t := by
  have hlookup := map_text?_references (o := o) hdistinct
  refine ⟨ofScreen o s, build_empty o s, texts_ofScreen_eq_eraseDups o s,
    nodup_withTexts List.nodup_nil _, hlookup, fun op hop id hid => ?_, fun t ht => ?_⟩
  · have hmem : (ofScreen o s).text? id ∈ (stringsOfAll s.elements).map some := by
      rw [← hlookup]
      exact List.mem_map_of_mem (List.mem_flatMap.mpr ⟨op, hop, hid⟩)
    obtain ⟨t, -, ht⟩ := List.mem_map.mp hmem
    exact (List.getElem?_eq_some_iff.mp ht.symm).1
  · have hmem : some t ∈ (stringsOfAll s.elements).map some :=
      List.mem_map_of_mem (mem_texts_ofScreen.mp ht)
    rw [← hlookup] at hmem
    obtain ⟨id, hid, hmeans⟩ := List.mem_map.mp hmem
    obtain ⟨op, hop, hid⟩ := List.mem_flatMap.mp hid
    exact ⟨op, hop, id, hid, hmeans⟩

/-- A card that is clicked for what is the label of the button in it, and a text that is the action
of this button. -/
def crossedNames : Screen where
  background := .black
  scrollable := false
  padding := 0
  elements := [
    .card ⟨0, .black, ⟨0, 0⟩, none, .center, some "stop"⟩
      [.button ⟨"stop", "go", 0, .black, .black, 14, ⟨0, 0⟩, none⟩],
    .text ⟨"go", 14, .black, ⟨0, 0⟩, 0⟩]

theorem texts_referenced_crossedNames :
    (stringsOfAll crossedNames.elements).eraseDups.length < 2 ^ 32 ∧
      ∃ d, build .empty {} crossedNames = .ok d ∧ d.texts = ["stop", "go"] ∧
        (d.operations.flatMap Operation.references).map d.text? =
          [some "stop", some "go", some "stop", some "go"] := by
  have hdistinct : (stringsOfAll crossedNames.elements).eraseDups.length < 2 ^ 32 := by
    decide +kernel
  obtain ⟨d, hd, htexts, -, hlookup, -, -⟩ := texts_referenced {} crossedNames hdistinct
  exact ⟨hdistinct, d, hd, htexts.trans (by decide +kernel), hlookup.trans (by decide +kernel)⟩

end LayoutCompiler.Document
