import LayoutCompiler.Conversion
import LayoutCompiler.Proofs.Screen.Traversal
import Mathlib.Data.List.Nodup

/-
What recording a screen does to a writer. The table of texts only grows at its end,
so a number that was given early still means the same text in every later table:
`numberIn final` gives all numbers at once, for the table as it is at the end. With
these numbers the operations of an element are a function of the element alone
(`operationsOf`). `Records` says that a recording adds given texts and operations and
turns the stack of what is open into another one; it composes along the steps of a
recording, and by induction an element leaves the stack as it found it. So what is
opened is ended, and the document of a screen can be written down (`build_empty`).
-/

namespace LayoutCompiler.Document

/-! ### Tables of texts -/

/-- A table with a text added, unless it is there. -/
def withText (texts : List String) (s : String) : List String :=
  if s ∈ texts then texts else texts ++ [s]

/-- A table with texts added one after another. -/
def withTexts (texts : List String) (ss : List String) : List String :=
  ss.foldl withText texts

/-- The number of a text of a table: its first place. -/
def numberIn (texts : List String) (s : String) : TextId :=
  UInt32.ofNat (texts.idxOf s)

theorem prefix_withText (texts : List String) (s : String) : texts <+: withText texts s := by
  unfold withText
  split
  · exact List.prefix_rfl
  · exact List.prefix_append texts [s]

theorem mem_withText {texts : List String} {s t : String} :
    t ∈ withText texts s ↔ t ∈ texts ∨ t = s := by
  unfold withText
  split
  case isTrue h =>
    constructor
    · exact .inl
    · rintro (ht | rfl)
      · exact ht
      · exact h
  case isFalse h => rw [List.mem_append, List.mem_singleton]

theorem nodup_withText {texts : List String} (h : texts.Nodup) (s : String) :
    (withText texts s).Nodup := by
  unfold withText
  split
  case isTrue => exact h
  case isFalse hs => exact List.nodup_append.mpr ⟨h, List.nodup_singleton s, by
    rintro a ha b hb rfl
    exact hs (List.mem_singleton.mp hb ▸ ha)⟩

theorem withTexts_append (texts ss ss' : List String) :
    withTexts texts (ss ++ ss') = withTexts (withTexts texts ss) ss' :=
  List.foldl_append

theorem prefix_withTexts (texts ss : List String) : texts <+: withTexts texts ss := by
  induction ss generalizing texts with
  | nil => exact List.prefix_rfl
  | cons s ss ih => exact (prefix_withText texts s).trans (ih (withText texts s))

theorem mem_withTexts {texts ss : List String} {t : String} :
    t ∈ withTexts texts ss ↔ t ∈ texts ∨ t ∈ ss := by
  induction ss generalizing texts with
  | nil => exact (or_iff_left List.not_mem_nil).symm
  | cons s ss ih =>
    show t ∈ withTexts (withText texts s) ss ↔ _
    rw [ih, mem_withText, List.mem_cons, or_assoc]

theorem nodup_withTexts {texts : List String} (h : texts.Nodup) (ss : List String) :
    (withTexts texts ss).Nodup := by
  induction ss generalizing texts with
  | nil => exact h
  | cons s ss ih => exact ih (nodup_withText h s)

/-- A number keeps its meaning while the table grows. -/
theorem numberIn_of_prefix {texts final : List String} (h : texts <+: final) {s : String}
    (hs : s ∈ texts) : numberIn texts s = numberIn final s :=
  congrArg UInt32.ofNat (h.idxOf_eq_of_mem hs)

theorem lookup_zipIdx (texts : List String) (s : String) (n : Nat) :
    ((texts.zipIdx n).map fun t => (t.1, UInt32.ofNat t.2)).lookup s =
      (texts.idxOf? s).map fun i => UInt32.ofNat (i + n) := by
  induction texts generalizing n with
  | nil => rfl
  | cons t texts ih =>
    rw [List.zipIdx_cons, List.map_cons, List.lookup_cons, List.idxOf?_cons]
    by_cases h : t = s
    · simp [h]
    · have hne : (t == s) = false := beq_eq_false_iff_ne.mpr h
      have hne' : (s == t) = false := beq_eq_false_iff_ne.mpr (Ne.symm h)
      simp only [hne, hne', ih, Bool.false_eq_true, if_false, Option.map_map]
      refine Option.map_congr fun i _ => congrArg UInt32.ofNat ?_
      rw [Nat.add_assoc, Nat.add_comm 1]

/-- The map has the first places of the texts in the table. -/
theorem TextTable.lookup_numbers (x : TextTable) (s : String) :
    x.numbers.lookup s = if s ∈ x.texts then some (numberIn x.texts s) else none := by
  have hlookup := lookup_zipIdx x.texts s 0
  rw [x.agree, numbersOf, hlookup, numberIn]
  cases h : x.texts.idxOf? s with
  | none => rw [if_neg (List.idxOf?_eq_none_iff.mp h), Option.map_none]
  | some i =>
    have hs : s ∈ x.texts := List.isSome_idxOf?.mp (by rw [h]; rfl)
    simp [hs, List.idxOf_eq_getD_idxOf?, h]

/-- A text that is asked for is in the table from then on, under the number that is given. -/
theorem TextTable.add_spec (x : TextTable) (s : String) :
    (x.add s).1 = numberIn (withText x.texts s) s ∧ (x.add s).2.texts = withText x.texts s := by
  unfold add withText
  rw [x.lookup_numbers s]
  by_cases hs : s ∈ x.texts
  · simp [hs]
  · simp [hs, numberIn, List.idxOf_append]

/-- A table to which texts are added one after another. -/
def TextTable.addAll (x : TextTable) (ss : List String) : TextTable :=
  ss.foldl (fun x s => (x.add s).2) x

theorem TextTable.addAll_append (x : TextTable) (ss ss' : List String) :
    x.addAll (ss ++ ss') = (x.addAll ss).addAll ss' :=
  List.foldl_append

theorem TextTable.texts_addAll (x : TextTable) (ss : List String) :
    (x.addAll ss).texts = withTexts x.texts ss := by
  induction ss generalizing x with
  | nil => rfl
  | cons s ss ih =>
    show ((x.add s).2.addAll ss).texts = _
    rw [ih, (x.add_spec s).2]
    rfl

theorem Writer.addText_eq (w : Writer) (s : String) :
    w.addText s =
      (numberIn (withText w.texts s) s, { w with table := w.table.addAll [s] }) :=
  congrArg (fun id => (id, { w with table := w.table.addAll [s] })) (w.table.add_spec s).1

/-! ### The operations of an element -/

/-- The texts of one element that get a number, without those of its children. -/
def ownStrings : Element → List String
  | .text t => [t.text]
  | .button b => [b.action, b.label]
  | .card c _ => c.action.toList
  | .spacer _ | .divider _ _ | .row _ _ => []

/-- The texts of an element that get a number, in the order in which they get it. -/
def stringsOf (e : Element) : List String :=
  e.preorder.flatMap ownStrings

/-- The texts of elements that get a number. -/
def stringsOfAll (es : List Element) : List String :=
  (Element.preorderAll es).flatMap ownStrings

theorem stringsOfAll_cons (e : Element) (es : List Element) :
    stringsOfAll (e :: es) = stringsOf e ++ stringsOfAll es :=
  List.flatMap_append

theorem stringsOf_eq (e : Element) : stringsOf e = ownStrings e ++ stringsOfAll e.children := by
  rw [stringsOf, Element.preorder_eq_cons, List.flatMap_cons, stringsOfAll]

/-- The drawing of a text under a number. -/
def runOfText (o : Options) (id : TextId) (t : Element.Text) : TextRun where
  modifiers := textModifiers o t
  text := id
  color := t.color
  fontSize := o.sp t.fontSize
  fontWeight := Defaults.Text.fontWeight
  align := .leading

/-- The drawing of the label of a button under a number. -/
def runOfLabel (o : Options) (id : TextId) (b : Element.Button) : TextRun where
  modifiers := []
  text := id
  color := b.textColor
  fontSize := o.sp b.fontSize
  fontWeight := Defaults.Button.fontWeight
  align := .center

section Operations

variable (o : Options) (number : String → TextId)

/-- The action that reports a name. -/
def actionNamed (name : String) : HostAction :=
  ⟨clickActionId, number name⟩

mutual

/-- The operations of an element inside a container, where `number` gives the numbers of texts. -/
def operationsOf (parent : Parent) : Element → List Operation
  | .text t => [.text (runOfText o (number t.text) t)]
  | .button b =>
    [.boxStart (buttonModifiers o parent b (actionNamed number b.action)) .center .center,
      .text (runOfLabel o (number b.label) b), .containerEnd]
  | .spacer height => [.boxStart (spacerModifiers o height) .leading .leading, .containerEnd]
  | .divider thickness color =>
    [.boxStart (dividerModifiers o thickness color) .leading .leading, .containerEnd]
  | .card c children =>
    .boxStart (cardModifiers o c (c.action.map (actionNamed number))) .leading .leading ::
      .columnStart [.fillMaxWidth] c.align .leading ::
        (operationsOfAll .column children ++ [.containerEnd, .containerEnd])
  | .row paddingV children =>
    .rowStart (rowModifiers o paddingV) .spaceEvenly .center ::
      (operationsOfAll .row children ++ [.containerEnd])

/-- The operations of elements inside a container, in order. -/
def operationsOfAll (parent : Parent) : List Element → List Operation
  | [] => []
  | e :: es => operationsOf parent e ++ operationsOfAll parent es

end

/-- The operations of a screen. -/
def operationsOfScreen (s : Screen) : List Operation :=
  .rootStart :: .columnStart (rootModifiers o s) .center s.verticalArrangement ::
    (operationsOfAll o number .column s.elements ++ [.containerEnd, .rootEnd])

end Operations

/-! ### Recordings, one step after another -/

/-- A recording gives `a` and adds the texts `ss` and the operations `ops`; it takes the stack of
what is open from `before` to `after`. The numbers are those of a table `final` of a later time. -/
def Records {α : Type} (final : List String) (m : Recording α) (ss : List String) (a : α)
    (ops : List Operation) (before after : List Open) : Prop :=
  ∀ w : Writer, w.opened = before → withTexts w.texts ss <+: final →
    m w = .ok (a, { w with
      table := w.table.addAll ss
      recorded := ops.reverse ++ w.recorded
      opened := after })

namespace Records

variable {α β : Type} {final : List String} {m : Recording α} {next : α → Recording β}
  {ss ss' : List String} {a : α} {b : β} {ops ops' : List Operation}
  {stack before between after : List Open}

theorem pure (a : α) : Records final (pure a) [] a [] stack stack := by
  rintro w rfl -
  rfl

/-- What two recordings add, they add one after the other. -/
theorem bind (first : Records final m ss a ops before between)
    (second : Records final (next a) ss' b ops' between after) :
    Records final (m >>= next) (ss ++ ss') b (ops ++ ops') before after := by
  intro w hopened hprefix
  rw [withTexts_append] at hprefix
  show StateT.bind m next w = _
  have hfirst := first w hopened ((prefix_withTexts _ ss').trans hprefix)
  rw [Writer.texts, ← w.table.texts_addAll] at hprefix
  rw [StateT.bind, hfirst]
  let grown : Writer :=
    { w with table := w.table.addAll ss, recorded := ops.reverse ++ w.recorded, opened := between }
  refine (second grown rfl hprefix).trans ?_
  rw [List.reverse_append, List.append_assoc, TextTable.addAll_append]

/-- A recording is described by any way to write what it adds. -/
theorem of_eq (h : Records final m ss a ops before after) (hss : ss = ss') (hops : ops = ops') :
    Records final m ss' a ops' before after :=
  hss ▸ hops ▸ h

end Records

section Steps

variable {final : List String} {stack : List Open}

theorem records_textId (s : String) :
    Records final (Recording.textId s) [s] (numberIn final s) [] stack stack := by
  rintro w rfl hprefix
  have hs : s ∈ withText w.texts s := mem_withText.mpr (.inr rfl)
  have hnumber : numberIn (withText w.texts s) s = numberIn final s :=
    numberIn_of_prefix hprefix hs
  rw [Recording.textId, Writer.addText_eq, hnumber]
  rfl

theorem records_textRun (run : TextRun) :
    Records final (Recording.step (·.textRun run)) [] () [.text run] stack stack := by
  rintro w rfl -
  rfl

theorem records_start (kind : Open) (op : Operation) :
    Records final (Recording.step (·.start kind op)) [] () [op] stack (kind :: stack) := by
  rintro w rfl -
  rfl

/-- What was opened last can be ended. -/
theorem records_close (kind : Open) (op : Operation) :
    Records final (Recording.ending (·.close kind op)) [] () [op] (kind :: stack) stack := by
  intro w hopened _
  rw [Recording.ending, Writer.close, hopened]
  simp only [if_pos]
  rfl

theorem records_hostAction (name : String) :
    Records final (Recording.hostAction name) [name] (actionNamed (numberIn final) name) []
      stack stack :=
  (records_textId name).bind (.pure _)

theorem records_cardAction (action : Option String) :
    Records final (Recording.cardAction action) action.toList
      (action.map (actionNamed (numberIn final))) [] stack stack := by
  cases action with
  | none => exact .pure none
  | some name => exact (records_hostAction name).bind (.pure _)

theorem records_emptyBox (modifiers : List Modifier) :
    Records final (Recording.emptyBox modifiers) [] ()
      [.boxStart modifiers .leading .leading, .containerEnd] stack stack :=
  (records_start .container _).bind (records_close .container .containerEnd)

end Steps

/-! ### Elements and screens -/

section Elements

variable (o : Options) (final : List String)

theorem records_elements {parent : Parent} (stack : List Open) {es : List Element}
    (each : ∀ e ∈ es, Records final (Recording.element o parent e) (stringsOf e) ()
      (operationsOf o (numberIn final) parent e) stack stack) :
    Records final (Recording.elements o parent es) (stringsOfAll es) ()
      (operationsOfAll o (numberIn final) parent es) stack stack := by
  induction es with
  | nil => exact .pure ()
  | cons e es ih =>
    have first := each e List.mem_cons_self
    have rest := ih fun e' he' => each e' (List.mem_cons_of_mem e he')
    exact (first.bind rest).of_eq (stringsOfAll_cons e es).symm rfl

/-- An element adds its texts and its operations and leaves open what was open before. -/
theorem records_element (e : Element) (parent : Parent) (stack : List Open) :
    Records final (Recording.element o parent e) (stringsOf e) ()
      (operationsOf o (numberIn final) parent e) stack stack := by
  induction e using Element.inductionOn generalizing parent stack with
  | step e ih =>
    rw [stringsOf_eq]
    cases e with
    | text t => exact (records_textId t.text).bind (records_textRun _)
    | button b =>
      exact (records_hostAction b.action).bind <| (records_textId b.label).bind <|
        (records_start .container _).bind <| (records_textRun _).bind <|
          records_close .container .containerEnd
    | spacer height => exact records_emptyBox _
    | divider thickness color => exact records_emptyBox _
    | card c children =>
      have below := records_elements o final (.container :: .container :: stack)
        fun e he => ih e he .column _
      refine .of_eq ((records_cardAction c.action).bind <| (records_start .container _).bind <|
        (records_start .container _).bind <| below.bind <|
          (records_close .container .containerEnd).bind <|
            records_close .container .containerEnd) ?_ rfl
      simp [ownStrings, Element.children]
    | row paddingV children =>
      have below := records_elements o final (.container :: stack) fun e he => ih e he .row _
      refine .of_eq ((records_start .container _).bind <|
        below.bind <| records_close .container .containerEnd) ?_ rfl
      simp [ownStrings, Element.children]

/-- The table of texts after a screen has been written to a writer with the table `texts`. -/
def textsAfter (texts : List String) (s : Screen) : List String :=
  withTexts texts (stringsOfAll s.elements)

/-- The steps of a screen after the document has been begun. -/
theorem records_screen (s : Screen) (stack : List Open) :
    Records final
      (do
        Recording.step (·.startRoot)
        Recording.step (·.startColumn (rootModifiers o s) .center s.verticalArrangement)
        Recording.elements o .column s.elements
        Recording.ending Writer.endContainer
        Recording.ending Writer.endRoot)
      (stringsOfAll s.elements) () (operationsOfScreen o (numberIn final) s) stack stack := by
  have each (e : Element) (_ : e ∈ s.elements) :=
    records_element o final e .column (.container :: .root :: stack)
  refine .of_eq ((records_start .root _).bind <| (records_start .container _).bind <|
    (records_elements o final _ each).bind <| (records_close .container .containerEnd).bind <|
      records_close .root .rootEnd) ?_ rfl
  exact List.append_nil _

/-- Writing a screen succeeds with every writer and leaves open what was open before. -/
theorem screen_run (w : Writer) (s : Screen) :
    Recording.screen o s w = .ok ((), { w with
      header := some o.header
      table := w.table.addAll (stringsOfAll s.elements)
      recorded :=
        (operationsOfScreen o (numberIn (textsAfter w.texts s)) s).reverse ++ w.recorded }) :=
  records_screen o _ s w.opened (w.begin o) rfl List.prefix_rfl

/-- The document of a screen adds the operations of the screen to those recorded before; what is
still open comes from before. -/
theorem build_eq (w : Writer) (s : Screen) :
    build w o s =
      if w.opened.isEmpty then
        .ok ⟨o.header, textsAfter w.texts s,
          w.operations ++ operationsOfScreen o (numberIn (textsAfter w.texts s)) s⟩
      else .error (.unclosed w.opened.length) := by
  have htexts : (w.table.addAll (stringsOfAll s.elements)).texts = textsAfter w.texts s :=
    w.table.texts_addAll _
  rw [build, screen_run, ← htexts]
  show Writer.document _ = _
  rw [Writer.document, Writer.operations, Writer.operations, List.reverse_append,
    List.reverse_reverse]
  rfl

/-- The document of a screen, written by a writer that has recorded nothing. -/
def ofScreen (s : Screen) : Document :=
  ⟨o.header, textsAfter [] s, operationsOfScreen o (numberIn (textsAfter [] s)) s⟩

theorem build_empty (s : Screen) : build .empty o s = .ok (ofScreen o s) :=
  build_eq o .empty s

end Elements

end LayoutCompiler.Document

namespace LayoutCompiler

/-- The document of a layout fails only as the layout does. -/
theorem Config.Layout.document_eq (o : Document.Options) (l : Layout) :
    l.document o = (l.resolve.map (Document.ofScreen o)).mapError .color := by
  rw [document]
  cases l.resolve with
  | error e => rfl
  | ok s =>
    simp only [Document.build_empty]
    rfl

end LayoutCompiler
