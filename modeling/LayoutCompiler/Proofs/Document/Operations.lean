import LayoutCompiler.Proofs.Document.Recording
import Mathlib.Algebra.Group.Nat.Defs

/-
Reading the operations of a screen one at a time. An element opens with operations
of its own, goes on with those of its children and ends with nothing but ends of
containers. So what the operations of a screen say one after another, its elements
say in the order of the screen (`flatMap_operationsOfScreen`); in particular the
texts that are drawn and the actions that clicks report.
-/

namespace LayoutCompiler.Document

/-! ### What numbers mean -/

/-- A text is found in the table under its number, as long as numbers do not run out. -/
theorem getElem?_numberIn {texts : List String} (hlength : texts.length ≤ 2 ^ 32) {s : String}
    (hs : s ∈ texts) : texts[(numberIn texts s).toNat]? = some s := by
  have hlt : texts.idxOf s < 2 ^ 32 := Nat.lt_of_lt_of_le (List.idxOf_lt_length_iff.mpr hs) hlength
  rw [numberIn, UInt32.toNat_ofNat_of_lt' hlt, List.getElem?_idxOf hs]

/-- Different texts have different numbers. -/
theorem numberIn_inj {texts : List String} (hlength : texts.length ≤ 2 ^ 32) {s t : String}
    (hs : s ∈ texts) (ht : t ∈ texts) : numberIn texts s = numberIn texts t ↔ s = t := by
  constructor
  · intro h
    have hfound := getElem?_numberIn hlength hs
    rw [h, getElem?_numberIn hlength ht] at hfound
    exact (Option.some.inj hfound).symm
  · rintro rfl
    rfl

/-- The number `id` means the text `s` in the table of `d`. -/
def Names (d : Document) (id : TextId) (s : String) : Prop :=
  ∃ i, d.texts[i]? = some s ∧ id = UInt32.ofNat i

/-- As long as numbers do not run out, a number means the text that is looked up under it. -/
theorem Names.text?_eq {d : Document} {id : TextId} {s : String} (hid : d.Names id s)
    (h : d.texts.length ≤ 2 ^ 32) : d.text? id = some s := by
  obtain ⟨i, hi, rfl⟩ := hid
  have hlt : i < 2 ^ 32 := Nat.lt_of_lt_of_le (List.getElem?_eq_some_iff.mp hi).1 h
  rw [text?, UInt32.toNat_ofNat_of_lt' hlt, hi]

/-- The number of a text in the table means it. -/
theorem names_numberIn {d : Document} {s : String} (hs : s ∈ d.texts) :
    d.Names (numberIn d.texts s) s :=
  ⟨d.texts.idxOf s, List.getElem?_idxOf hs, rfl⟩

theorem mem_texts_ofScreen {o : Options} {s : Screen} {t : String} :
    t ∈ (ofScreen o s).texts ↔ t ∈ stringsOfAll s.elements :=
  mem_withTexts.trans (or_iff_right List.not_mem_nil)

/-! ### Openings and closings -/

section Operations

variable (o : Options) (number : String → TextId)

/-- What an element is for its children. -/
def asParent : Element → Parent
  | .row _ _ => .row
  | .text _ | .button _ | .spacer _ | .divider _ _ | .card _ _ => .column

/-- The operations of an element that come before those of its children. -/
def opening (parent : Parent) : Element → List Operation
  | .card c _ =>
    [.boxStart (cardModifiers o c (c.action.map (actionNamed number))) .leading .leading,
      .columnStart [.fillMaxWidth] c.align .leading]
  | .row paddingV _ => [.rowStart (rowModifiers o paddingV) .spaceEvenly .center]
  | e => operationsOf o number parent e

/-- The operations of an element that come after those of its children. -/
def closing : Element → List Operation
  | .card _ _ => [.containerEnd, .containerEnd]
  | .row _ _ => [.containerEnd]
  | .text _ | .button _ | .spacer _ | .divider _ _ => []

theorem operationsOf_eq (parent : Parent) (e : Element) :
    operationsOf o number parent e =
      opening o number parent e ++
        (operationsOfAll o number (asParent e) e.children ++ closing e) := by
  cases e <;> rfl

variable {α : Type} {f : Operation → List α} {g : Element → List α}
  (hend : f .containerEnd = [])
  (hopening : ∀ parent e, (opening o number parent e).flatMap f = g e)

include hend in
theorem flatMap_closing (e : Element) : (closing e).flatMap f = [] := by
  cases e <;> simp [closing, hend]

theorem operationsOfAll_eq_flatMap (parent : Parent) (es : List Element) :
    operationsOfAll o number parent es = es.flatMap (operationsOf o number parent) := by
  induction es with
  | nil => rfl
  | cons e es ih => rw [operationsOfAll, ih, List.flatMap_cons]

theorem flatMap_operationsOfAll {parent : Parent} {es : List Element}
    (each : ∀ e ∈ es, (operationsOf o number parent e).flatMap f = e.preorder.flatMap g) :
    (operationsOfAll o number parent es).flatMap f = (Element.preorderAll es).flatMap g := by
  rw [operationsOfAll_eq_flatMap, List.flatMap_assoc]
  exact Element.flatMap_eq_flatMap_preorderAll each

include hend hopening

/-- What the operations of an element say, the element and those below it say in order. -/
theorem flatMap_operationsOf (e : Element) (parent : Parent) :
    (operationsOf o number parent e).flatMap f = e.preorder.flatMap g := by
  induction e using Element.inductionOn generalizing parent with
  | step e ih =>
    have below := flatMap_operationsOfAll o number fun c hc => ih c hc (asParent e)
    rw [operationsOf_eq, List.flatMap_append, List.flatMap_append, hopening, below,
      flatMap_closing hend, List.append_nil, Element.preorder_eq_cons, List.flatMap_cons]

/-- What the operations of a screen say, its elements say in order, if the root and its column say
nothing. -/
theorem flatMap_operationsOfScreen (s : Screen) (hroot : f .rootStart = [] ∧ f .rootEnd = [])
    (hcolumn : f (.columnStart (rootModifiers o s) .center s.verticalArrangement) = []) :
    (operationsOfScreen o number s).flatMap f = (Element.preorderAll s.elements).flatMap g := by
  have below := flatMap_operationsOfAll o number fun e (_ : e ∈ s.elements) =>
    flatMap_operationsOf o number hend hopening e .column
  simp [operationsOfScreen, hroot, hcolumn, hend, below]

end Operations

/-! ### Texts -/

/-- The text that an operation draws. -/
def Operation.run? : Operation → Option TextRun
  | .text run => some run
  | _ => none

/-- The texts that operations draw, in order. -/
def runsIn (ops : List Operation) : List TextRun :=
  ops.filterMap Operation.run?

/-- The texts that one element draws, without those of its children. -/
def ownRuns (o : Options) (number : String → TextId) : Element → List TextRun
  | .text t => [runOfText o (number t.text) t]
  | .button b => [runOfLabel o (number b.label) b]
  | .spacer _ | .divider _ _ | .card _ _ | .row _ _ => []

theorem runsIn_operationsOfScreen (o : Options) (number : String → TextId) (s : Screen) :
    runsIn (operationsOfScreen o number s) =
      (Element.preorderAll s.elements).flatMap (ownRuns o number) := by
  rw [runsIn, List.filterMap_eq_flatMap_toList]
  refine flatMap_operationsOfScreen o number rfl (fun parent e => ?_) s ⟨rfl, rfl⟩ rfl
  cases e <;> rfl

theorem textRuns_ofScreen (o : Options) (s : Screen) :
    (ofScreen o s).textRuns =
      (Element.preorderAll s.elements).flatMap (ownRuns o (numberIn (textsAfter [] s))) :=
  runsIn_operationsOfScreen o _ s

/-! ### Clicks -/

/-- The action that a modifier reports on clicks. -/
def Modifier.action? : Modifier → Option HostAction
  | .onClick action => some action
  | _ => none

/-- The actions of the nodes of a document, in order. -/
def clicks (d : Document) : List HostAction :=
  (d.operations.flatMap Operation.modifiers).filterMap Modifier.action?

/-- The actions of the nodes that operations start or draw, in order. -/
def clicksIn (ops : List Operation) : List HostAction :=
  (ops.flatMap Operation.modifiers).filterMap Modifier.action?

/-- The actions of one element, without those of its children. -/
def ownClicks (number : String → TextId) : Element → List HostAction
  | .button b => [actionNamed number b.action]
  | .card c _ => (c.action.map (actionNamed number)).toList
  | .text _ | .spacer _ | .divider _ _ | .row _ _ => []

section Clicks

variable (o : Options)

theorem actions_paddingUnlessEmpty (p : Padding) :
    (o.paddingUnlessEmpty p).filterMap Modifier.action? = [] := by
  unfold Options.paddingUnlessEmpty
  split <;> rfl

theorem actions_borders (border : Option Border) (outline : Outline) :
    (o.borders border outline).filterMap Modifier.action? = [] := by
  cases border <;> rfl

theorem actions_rootModifiers (s : Screen) :
    (rootModifiers o s).filterMap Modifier.action? = [] := by
  unfold rootModifiers
  split <;> rfl

theorem actions_textModifiers (t : Element.Text) :
    (textModifiers o t).filterMap Modifier.action? = [] :=
  actions_paddingUnlessEmpty o t.padding

theorem actions_buttonModifiers (parent : Parent) (b : Element.Button) (action : HostAction) :
    (buttonModifiers o parent b action).filterMap Modifier.action? = [action] := by
  have hwidth : (if parent.stretchesButtons then [Modifier.fillMaxWidth] else []).filterMap
      Modifier.action? = [] := by
    split <;> rfl
  rw [buttonModifiers, List.filterMap_append, List.filterMap_append, List.filterMap_append, hwidth,
    actions_borders]
  rfl

theorem actions_cardModifiers (c : Element.Card) (action : Option HostAction) :
    (cardModifiers o c action).filterMap Modifier.action? = action.toList := by
  have hclip : (if 0 < c.cornerRadius then [Modifier.clip (o.rounded c.cornerRadius)]
      else []).filterMap Modifier.action? = [] := by
    split <;> rfl
  have haction : (action.map Modifier.onClick).toList.filterMap Modifier.action? =
      action.toList := by
    cases action <;> rfl
  simp only [cardModifiers, List.filterMap_append, actions_borders, hclip, haction,
    actions_paddingUnlessEmpty]
  exact List.append_nil _

theorem clicksIn_operationsOfScreen (number : String → TextId) (s : Screen) :
    clicksIn (operationsOfScreen o number s) =
      (Element.preorderAll s.elements).flatMap (ownClicks number) := by
  rw [clicksIn, List.filterMap_flatMap]
  refine flatMap_operationsOfScreen o number rfl (fun parent e => ?_) s ⟨rfl, rfl⟩
    (actions_rootModifiers o s)
  cases e with
  | text t => simp [opening, operationsOf, ownClicks, Operation.modifiers, runOfText,
      actions_textModifiers]
  | button b => simp [opening, operationsOf, ownClicks, Operation.modifiers, runOfLabel,
      actions_buttonModifiers]
  | spacer height => rfl
  | divider thickness color => rfl
  | card c children => simp [opening, ownClicks, Operation.modifiers, Modifier.action?,
      actions_cardModifiers]
  | row paddingV children => rfl

theorem clicks_ofScreen (s : Screen) :
    clicks (ofScreen o s) =
      (Element.preorderAll s.elements).flatMap (ownClicks (numberIn (textsAfter [] s))) :=
  clicksIn_operationsOfScreen o _ s

/-- All clicks are reported under one number. -/
theorem actionId_of_mem_clicks {s : Screen} {action : HostAction}
    (h : action ∈ clicks (ofScreen o s)) : action.actionId = clickActionId := by
  rw [clicks_ofScreen] at h
  obtain ⟨e, -, h⟩ := List.mem_flatMap.mp h
  cases e with
  | button b =>
    obtain rfl := List.mem_singleton.mp h
    rfl
  | card c children =>
    obtain ⟨name, -, rfl⟩ := Option.map_eq_some_iff.mp (Option.mem_toList.mp h)
    rfl
  | text t | spacer height | divider thickness color | row paddingV children =>
    exact absurd h List.not_mem_nil

theorem actionNames_eq (d : Document) :
    d.actionNames = (clicks d).filterMap fun action => d.text? action.name := by
  rw [actionNames, clicks, List.filterMap_filterMap]
  congr 1
  funext m
  cases m <;> rfl

end Clicks

/-! ### Sizes -/

section Sizes

variable (o : Options) (number : String → TextId)

/-- Every operation of an element ends a container or comes before the children of the element or
of one below it. -/
theorem mem_opening_of_mem {op : Operation} (e : Element) (parent : Parent)
    (h : op ∈ operationsOf o number parent e) :
    op = .containerEnd ∨ ∃ p, ∃ c ∈ e.preorder, op ∈ opening o number p c := by
  induction e using Element.inductionOn generalizing parent with
  | step e ih =>
    rw [operationsOf_eq, operationsOfAll_eq_flatMap, List.mem_append, List.mem_append] at h
    rw [Element.preorder_eq_cons]
    rcases h with hopening | hbelow | hclosing
    · exact .inr ⟨parent, e, List.mem_cons_self, hopening⟩
    · obtain ⟨c, hc, hop⟩ := List.mem_flatMap.mp hbelow
      rcases ih c hc _ hop with rfl | ⟨p, c', hc', hop⟩
      · exact .inl rfl
      · refine .inr ⟨p, c', List.mem_cons_of_mem _ ?_, hop⟩
        rw [Element.preorderAll_eq_flatMap]
        exact List.mem_flatMap.mpr ⟨c, hc, hc'⟩
    · cases e <;> simp_all [closing]

theorem length_paddingUnlessEmpty_le (p : Padding) : (o.paddingUnlessEmpty p).length ≤ 1 := by
  unfold Options.paddingUnlessEmpty
  split <;> simp

theorem length_borders_le (border : Option Border) (outline : Outline) :
    (o.borders border outline).length ≤ 1 := by
  cases border <;> simp [Options.borders]

theorem length_rootModifiers_le (s : Screen) : (rootModifiers o s).length ≤ 6 := by
  unfold rootModifiers
  split <;> simp

theorem length_textModifiers_le (t : Element.Text) : (textModifiers o t).length ≤ 6 := by
  have hpadding := length_paddingUnlessEmpty_le o t.padding
  rw [textModifiers, List.length_cons]
  omega

theorem length_buttonModifiers_le (parent : Parent) (b : Element.Button) (action : HostAction) :
    (buttonModifiers o parent b action).length ≤ 6 := by
  have hborder := length_borders_le o b.border (o.rounded b.cornerRadius)
  unfold buttonModifiers
  split <;> simp only [List.length_append, List.length_cons, List.length_nil] <;> omega

theorem length_cardModifiers_le (c : Element.Card) (action : Option HostAction) :
    (cardModifiers o c action).length ≤ 6 := by
  have hborder := length_borders_le o c.border (o.rounded c.cornerRadius)
  have hpadding := length_paddingUnlessEmpty_le o c.padding
  have haction : (action.map Modifier.onClick).toList.length ≤ 1 := by cases action <;> simp
  unfold cardModifiers
  split <;> simp only [List.length_append, List.length_cons, List.length_nil] <;> omega

/-- No node has more than six modifiers. -/
theorem length_modifiers_of_mem_opening (parent : Parent) (e : Element) :
    ∀ op ∈ opening o number parent e, op.modifiers.length ≤ 6 := by
  cases e with
  | text t =>
    simpa [opening, operationsOf, Operation.modifiers, runOfText] using
      length_textModifiers_le o t
  | button b =>
    simpa [opening, operationsOf, Operation.modifiers, runOfLabel] using
      length_buttonModifiers_le o parent b _
  | spacer height => simp [opening, operationsOf, Operation.modifiers, spacerModifiers]
  | divider thickness color => simp [opening, operationsOf, Operation.modifiers, dividerModifiers]
  | card c children =>
    simpa [opening, Operation.modifiers] using length_cardModifiers_le o c _
  | row paddingV children => simp [opening, Operation.modifiers, rowModifiers]

theorem length_modifiers_of_mem_operationsOfScreen (s : Screen) :
    ∀ op ∈ operationsOfScreen o number s, op.modifiers.length ≤ 6 := by
  have helements : ∀ op ∈ operationsOfAll o number .column s.elements,
      op.modifiers.length ≤ 6 := by
    intro op hop
    rw [operationsOfAll_eq_flatMap] at hop
    obtain ⟨e, -, hop⟩ := List.mem_flatMap.mp hop
    rcases mem_opening_of_mem o _ e .column hop with rfl | ⟨p, c, -, hop⟩
    · exact Nat.zero_le 6
    · exact length_modifiers_of_mem_opening o _ p c op hop
  intro op hop
  simp only [operationsOfScreen, List.mem_cons, List.mem_append, List.not_mem_nil,
    or_false] at hop
  rcases hop with rfl | rfl | hop | rfl | rfl
  · exact Nat.zero_le 6
  · exact length_rootModifiers_le o s
  · exact helements op hop
  · exact Nat.zero_le 6
  · exact Nat.zero_le 6

theorem length_operationsOfAll_le {parent : Parent} {es : List Element}
    (each : ∀ e ∈ es, (operationsOf o number parent e).length ≤ 4 * e.preorder.length) :
    (operationsOfAll o number parent es).length ≤ 4 * (Element.preorderAll es).length := by
  induction es with
  | nil => exact Nat.zero_le _
  | cons e es ih =>
    have first := each e List.mem_cons_self
    have rest := ih fun e' he' => each e' (List.mem_cons_of_mem e he')
    rw [operationsOfAll, Element.preorderAll, List.length_append, List.length_append]
    omega

/-- An element opens and closes with at most four operations. -/
theorem length_operationsOf_le (e : Element) (parent : Parent) :
    (operationsOf o number parent e).length ≤ 4 * e.preorder.length := by
  induction e using Element.inductionOn generalizing parent with
  | step e ih =>
    have below := length_operationsOfAll_le o number fun c hc => ih c hc (asParent e)
    have hown : (opening o number parent e).length + (closing e).length ≤ 4 := by
      cases e <;> simp [opening, operationsOf, closing]
    rw [operationsOf_eq, Element.preorder_eq_cons, List.length_append, List.length_append,
      List.length_cons]
    omega

theorem length_operationsOfScreen_le (s : Screen) :
    (operationsOfScreen o number s).length ≤ 4 * (Element.preorderAll s.elements).length + 4 := by
  have helements := length_operationsOfAll_le o number
    fun e (_ : e ∈ s.elements) => length_operationsOf_le o number e .column
  simp only [operationsOfScreen, List.length_cons, List.length_append, List.length_nil]
  omega

end Sizes

end LayoutCompiler.Document
