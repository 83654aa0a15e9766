import LayoutCompiler.Proofs.Document.Calls
import LayoutCompiler.Proofs.Document.Operations
import LayoutCompiler.Proofs.Document.RoundTrip
import LayoutCompiler.Proofs.Widget.Content
import Mathlib.Data.List.Dedup

/-
Screens written after anything else. Whatever a writer has recorded before, a screen
adds one block of well-nested operations with one root to it (`wellNested_screen`),
and the texts and actions of this block are those of the screen, since every number is
looked up in a table that no later text disturbs (`map_text?_runsIn`,
`map_text?_clicksIn`). What was recorded and numbered before stays in front.
-/

namespace LayoutCompiler

/-- What holds of every screen in the memory of a machine with addresses of 64 bits: an element
takes more than eight bytes, and every text has fewer than `2 ^ 64` of them. -/
structure Screen.Addressable (s : Screen) : Prop where
  elements : 8 * (Element.preorderAll s.elements).length < 2 ^ 64
  texts : ∀ t ∈ s.texts ++ s.actions, t.utf8ByteSize < 2 ^ 64

namespace Document

/-- What holds of every writer in such a memory: an operation takes more than eight bytes, and so
does a modifier. -/
structure Writer.Addressable (w : Writer) : Prop where
  operations : 8 * w.recorded.length < 2 ^ 64
  modifiers : ∀ op ∈ w.recorded, 8 * op.modifiers.length < 2 ^ 64
  texts : ∀ t ∈ w.texts, t.utf8ByteSize < 2 ^ 64

/-! ### The operations of a screen are one block -/

section Block

variable (o : Options) (number : String → TextId)

theorem wellNested_operationsOfAll {parent : Parent} {es : List Element}
    (each : ∀ e ∈ es, WellNested (operationsOf o number parent e)) :
    WellNested (operationsOfAll o number parent es) := by
  rw [operationsOfAll_eq_flatMap]
  exact .flatMap each

theorem wellNested_operationsOf (e : Element) (parent : Parent) :
    WellNested (operationsOf o number parent e) := by
  induction e using Element.inductionOn generalizing parent with
  | step e ih =>
    have below (p : Parent) := wellNested_operationsOfAll o number fun c hc => ih c hc p
    cases e with
    | text t => exact .text _ .nil
    | button b => exact .enclosed .container rfl (.text _ .nil)
    | spacer height => exact .enclosed .container rfl .nil
    | divider thickness color => exact .enclosed .container rfl .nil
    | card c children =>
      -- The two ends of a card are that of its column and that of the box around it.
      have hcolumn : WellNested (.columnStart [.fillMaxWidth] c.align .leading ::
          (operationsOfAll o number .column children ++ [.containerEnd])) :=
        .enclosed .container rfl (below .column)
      have hcard : WellNested
          (.boxStart (cardModifiers o c (c.action.map (actionNamed number))) .leading .leading ::
            (.columnStart [.fillMaxWidth] c.align .leading ::
              (operationsOfAll o number .column children ++ [.containerEnd]) ++ [.containerEnd])) :=
        .enclosed .container rfl hcolumn
      simpa [operationsOf] using hcard
    | row paddingV children => exact .enclosed .container rfl (below .row)

theorem wellNested_screen (s : Screen) : WellNested (operationsOfScreen o number s) := by
  have helements := wellNested_operationsOfAll o number fun e (_ : e ∈ s.elements) =>
    wellNested_operationsOf o number e .column
  have hcolumn : WellNested (.columnStart (rootModifiers o s) .center s.verticalArrangement ::
      (operationsOfAll o number .column s.elements ++ [.containerEnd])) :=
    .enclosed .container rfl helements
  have hroot : WellNested (.rootStart ::
      (.columnStart (rootModifiers o s) .center s.verticalArrangement ::
        (operationsOfAll o number .column s.elements ++ [.containerEnd]) ++ [.rootEnd])) :=
    .enclosed .root rfl hcolumn
  simpa [operationsOfScreen] using hroot

/-- No element starts or ends a root. -/
theorem not_root_of_mem_operationsOf {e : Element} {parent : Parent} {op : Operation}
    (h : op ∈ operationsOf o number parent e) : op ≠ .rootStart ∧ op ≠ .rootEnd := by
  rcases mem_opening_of_mem o number e parent h with rfl | ⟨p, c, -, hop⟩
  · decide
  · constructor <;> rintro rfl <;> cases c <;> simp [opening, operationsOf] at hop

/-- A screen is one root. -/
theorem count_root_screen (s : Screen) :
    (operationsOfScreen o number s).count .rootStart = 1 ∧
      (operationsOfScreen o number s).count .rootEnd = 1 := by
  have helements {op : Operation} (hop : op = .rootStart ∨ op = .rootEnd) :
      (operationsOfAll o number .column s.elements).count op = 0 := by
    refine List.count_eq_zero.mpr fun hmem => ?_
    rw [operationsOfAll_eq_flatMap] at hmem
    obtain ⟨e, -, hmem⟩ := List.mem_flatMap.mp hmem
    obtain ⟨hstart, hend⟩ := not_root_of_mem_operationsOf o number hmem
    exact hop.elim hstart hend
  constructor
  · simp [operationsOfScreen, helements (.inl rfl)]
  · simp [operationsOfScreen, helements (.inr rfl)]

end Block

/-! ### What the numbers of a screen mean -/

section Lookup

variable (o : Options) {number : String → TextId} {d : Document} {s : Screen}
  (hnumber : ∀ t ∈ stringsOfAll s.elements, d.text? (number t) = some t)

include hnumber

theorem text?_of_mem_ownStrings {e : Element} (he : e ∈ Element.preorderAll s.elements)
    {t : String} (ht : t ∈ ownStrings e) : d.text? (number t) = some t :=
  hnumber t (List.mem_flatMap.mpr ⟨e, he, ht⟩)

/-- A screen draws its texts, if all of them are found under their numbers. -/
theorem map_text?_runsIn :
    (runsIn (operationsOfScreen o number s)).map (fun run => d.text? run.text) =
      s.texts.map some := by
  rw [runsIn_operationsOfScreen, List.map_flatMap, Screen.texts, List.map_flatMap]
  refine List.flatMap_congr fun e he => ?_
  have hlookup (t : String) := text?_of_mem_ownStrings hnumber (t := t) he
  cases e with
  | text t =>
    have htext := hlookup t.text List.mem_cons_self
    exact congrArg (fun found => [found]) htext
  | button b =>
    have hlabel := hlookup b.label (List.mem_cons_of_mem _ List.mem_cons_self)
    exact congrArg (fun found => [found]) hlabel
  | spacer height => rfl
  | divider thickness color => rfl
  | card c children => rfl
  | row paddingV children => rfl

/-- Clicks on a screen report its actions, if all of them are found under their numbers. -/
theorem map_text?_clicksIn :
    (clicksIn (operationsOfScreen o number s)).map (fun action => d.text? action.name) =
      s.actions.map some := by
  rw [clicksIn_operationsOfScreen, List.map_flatMap, Screen.actions, List.map_flatMap]
  refine List.flatMap_congr fun e he => ?_
  have hlookup (t : String) := text?_of_mem_ownStrings hnumber (t := t) he
  cases e with
  | text t => rfl
  | button b =>
    have haction := hlookup b.action List.mem_cons_self
    exact congrArg (fun found => [found]) haction
  | spacer height => rfl
  | divider thickness color => rfl
  | card c children =>
    cases hc : c.action with
    | none => simp [ownClicks, Element.ownActions, hc]
    | some name =>
      have hname := hlookup name (Option.mem_toList.mpr hc)
      simp [ownClicks, actionNamed, Element.ownActions, hc, hname]
  | row paddingV children => rfl

end Lookup

theorem mem_ownTexts_or_mem_ownActions {e : Element} {t : String} (h : t ∈ ownStrings e) :
    t ∈ e.ownTexts ∨ t ∈ e.ownActions := by
  cases e <;> simp_all [ownStrings, Element.ownTexts, Element.ownActions, or_comm]

/-- The texts of a screen that get a number are its texts and its actions. -/
theorem mem_texts_or_mem_actions {s : Screen} {t : String} (h : t ∈ stringsOfAll s.elements) :
    t ∈ s.texts ++ s.actions := by
  obtain ⟨e, he, ht⟩ := List.mem_flatMap.mp h
  rcases mem_ownTexts_or_mem_ownActions ht with ht | ht
  · exact List.mem_append_left _ (List.mem_flatMap.mpr ⟨e, he, ht⟩)
  · exact List.mem_append_right _ (List.mem_flatMap.mpr ⟨e, he, ht⟩)

/-! ### The document that extends a writer -/

namespace Writer

/-- The document of a screen that is written by `w`, which has nothing open. -/
def extension (w : Writer) (o : Options) (s : Screen) : Document where
  header := o.header
  texts := textsAfter w.texts s
  operations := w.operations ++ operationsOfScreen o (numberIn (textsAfter w.texts s)) s

variable {w : Writer} {o : Options} {s : Screen}

theorem mem_texts_extension {t : String} :
    t ∈ (w.extension o s).texts ↔ t ∈ w.texts ∨ t ∈ stringsOfAll s.elements :=
  mem_withTexts

theorem mem_of_mem_texts_extension {t : String} (h : t ∈ (w.extension o s).texts) :
    t ∈ w.texts ++ s.texts ++ s.actions := by
  rw [List.append_assoc]
  rcases mem_texts_extension.mp h with h | h
  · exact List.mem_append_left _ h
  · exact List.mem_append_right _ (mem_texts_or_mem_actions h)

section Distinct

variable (hnodup : w.texts.Nodup)
  (hdistinct : (w.texts ++ s.texts ++ s.actions).dedup.length < 2 ^ 32)

include hnodup hdistinct

theorem length_texts_extension_lt : (w.extension o s).texts.length < 2 ^ 32 := by
  have hextended : (w.extension o s).texts.Nodup := nodup_withTexts hnodup _
  have hlength := hextended.length_le_of_subset fun _ ht =>
    List.mem_dedup.mpr (mem_of_mem_texts_extension ht)
  exact Nat.lt_of_le_of_lt hlength hdistinct

/-- Every text of the screen is found under its number. -/
theorem text?_extension :
    ∀ t ∈ stringsOfAll s.elements,
      (w.extension o s).text? (numberIn (textsAfter w.texts s) t) = some t := by
  intro t ht
  have hmem : t ∈ (w.extension o s).texts := mem_texts_extension.mpr (.inr ht)
  have hlength := length_texts_extension_lt (o := o) hnodup hdistinct
  exact (names_numberIn hmem).text?_eq (Nat.le_of_lt hlength)

theorem fitsLengths_extension (hw : w.Addressable) (hs : s.Addressable) :
    (w.extension o s).FitsLengths where
  texts := by
    have hlength := length_texts_extension_lt (o := o) hnodup hdistinct
    omega
  text t ht := by
    rcases mem_texts_extension.mp ht with ht | ht
    · exact hw.texts t ht
    · exact hs.texts t (mem_texts_or_mem_actions ht)
  operations := by
    have hbefore := hw.operations
    have hscreen := hs.elements
    have hblock := length_operationsOfScreen_le o (numberIn (textsAfter w.texts s)) s
    rw [extension, List.length_append, operations, List.length_reverse]
    omega
  modifiers op hop := by
    rcases List.mem_append.mp hop with hop | hop
    · have hbefore := hw.modifiers op (List.mem_reverse.mp hop)
      omega
    · have hblock := length_modifiers_of_mem_operationsOfScreen o _ s op hop
      omega

end Distinct

end Writer

open Writer (empty)

/-- **Screens written after any calls.** Whatever calls a writer has seen, and whatever came of
them, a screen can be written with it if and only if nothing is open, and otherwise all that is
wrong is what has been left open. The document, read back from its bytes, has the header of the
screen, the earlier texts in front, and the earlier operations in front of one well-nested block
with one root; the texts and actions of the block are those of the widget tree. -/
theorem build_after {calls : List Call} {w : Writer} (hcalls : empty.after calls = w)
    (o : Options) (s : Screen)
    (hdistinct : (w.texts ++ s.texts ++ s.actions).dedup.length < 2 ^ 32)
    (hmemory : w.Addressable ∧ s.Addressable) :
    ((∃ d, build w o s = .ok d) ↔ w.opened = []) ∧
      (w.opened ≠ [] → build w o s = .error (.unclosed w.opened.length)) ∧
      build w o s ≠ .error .unbalanced ∧
      ∀ d, build w o s = .ok d →
        decode d.encode = .ok d ∧ d.header = o.header ∧ w.texts <+: d.texts ∧
          ∃ block inner, d.operations = w.operations ++ block ∧
            block = .rootStart :: .columnStart (rootModifiers o s) .center s.verticalArrangement ::
              (inner ++ [.containerEnd, .rootEnd]) ∧
            WellNested block ∧ block.count .rootStart = 1 ∧ block.count .rootEnd = 1 ∧
            (runsIn block).map (fun run => d.text? run.text) =
              (Widget.ofScreen s).texts.map some ∧
            (clicksIn block).map (fun action => d.text? action.name) =
              (Widget.ofScreen s).actions.map some := by
  -- This is all that is used of the calls: what they record is never looked into.
  have hnodup : w.texts.Nodup := hcalls ▸ Writer.nodup_texts_after calls
  have hbuild : build w o s =
      if w.opened.isEmpty then .ok (w.extension o s) else .error (.unclosed w.opened.length) :=
    build_eq o w s
  rw [hbuild]
  cases hopened : w.opened with
  | cons kind rest => simp
  | nil =>
    refine ⟨by simp, by simp, by simp, ?_⟩
    rintro d hd
    obtain rfl : w.extension o s = d := Except.ok.inj hd
    have hfits := Writer.fitsLengths_extension (o := o) hnodup hdistinct hmemory.1 hmemory.2
    have hdecode := decode_encode hfits []
    rw [List.append_nil] at hdecode
    have hnumber := Writer.text?_extension (o := o) hnodup hdistinct
    refine ⟨hdecode, rfl, prefix_withTexts _ _, _, _, rfl, rfl, wellNested_screen o _ s,
      (count_root_screen o _ s).1, (count_root_screen o _ s).2, ?_, ?_⟩
    · rw [map_text?_runsIn o hnumber, Widget.texts_ofScreen]
    · rw [map_text?_clicksIn o hnumber, Widget.actions_ofScreen]

/-- A root that is ended as if it were a container, a row, an end too many, and a text that has got
a number before its screen is written. -/
def careless : List Call :=
  [.begin ⟨.zero, 1, 1⟩, .addText "more", .startRoot, .endContainer, .startRow [] .leading .center,
    .endContainer, .endRoot]

/-- A button in a card, where the label of the button is the action of the card. -/
def buttonInCard : Screen where
  background := .black
  scrollable := true
  padding := 16
  elements := [.card ⟨8, ⟨0xFFFFFFFF⟩, ⟨16, 16⟩, none, .leading, some "more"⟩
    [.button ⟨"more", "go", 4, ⟨0xFFFFFFFF⟩, .black, 14, ⟨8, 8⟩, some ⟨1, .black⟩⟩]]

theorem build_after_careless :
    (empty.after careless).texts = ["more"] ∧
      ((empty.after careless).texts ++ buttonInCard.texts ++ buttonInCard.actions).dedup.length <
        2 ^ 32 ∧
      ((empty.after careless).Addressable ∧ buttonInCard.Addressable) ∧
      ∃ d block, build (empty.after careless) {} buttonInCard = .ok d ∧
        decode d.encode = .ok d ∧ d.header = Options.header {} ∧
        d.operations = [.rootStart, .rowStart [] .leading .center, .containerEnd] ++ block ∧
        WellNested block ∧
        (runsIn block).map (fun run => d.text? run.text) = [some "more"] ∧
        (clicksIn block).map (fun action => d.text? action.name) = [some "more", some "go"] := by
  have hdistinct :
      ((empty.after careless).texts ++ buttonInCard.texts ++ buttonInCard.actions).dedup.length <
        2 ^ 32 := by decide +kernel
  have hwriter : (empty.after careless).Addressable :=
    ⟨by decide +kernel, by decide +kernel, by decide +kernel⟩
  have hscreen : buttonInCard.Addressable := ⟨by decide +kernel, by decide +kernel⟩
  obtain ⟨hok, -, -, hdocument⟩ :=
    build_after (rfl : empty.after careless = _) {} buttonInCard hdistinct ⟨hwriter, hscreen⟩
  obtain ⟨d, hd⟩ := hok.mpr rfl
  obtain ⟨hdecode, hheader, -, block, inner, hoperations, -, hnested, -, -, htexts, hactions⟩ :=
    hdocument d hd
  exact ⟨rfl, hdistinct, ⟨hwriter, hscreen⟩, d, block, hd, hdecode, hheader, hoperations, hnested,
    htexts, hactions⟩

end Document

end LayoutCompiler
