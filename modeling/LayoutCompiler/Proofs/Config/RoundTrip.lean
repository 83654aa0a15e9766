import LayoutCompiler.Config.Printer
import LayoutCompiler.Conversion
import LayoutCompiler.Preview.Session
import LayoutCompiler.Proofs.Json.Nesting
import LayoutCompiler.Proofs.Json.Results
import LayoutCompiler.Proofs.Screen.Traversal

/-
Layouts are read back from their JSON texts, as far as no more lists and objects are
open at once than may be. The depth of a layout says how many that are, on the one hand
of the printed text (`Layout.nesting_toJson`) and on the other of what a reader with a
given room reads back (`Layout.readsBack`). Nothing deeper is ever read
(`Layout.ensures_reader`), so a layout that has been read is read back.
-/

namespace LayoutCompiler.Config

open Json (Reader ReadsBack FieldBack Draft Begins Spans SpansAll printText printInt printBool
  printList printObject printMember printedMembers)

/-! ### How deep layouts are -/

mutual

/-- The number of lists and objects of an element that are one inside the other. A list of children
is one, even if it is empty. -/
def Element.depth : Element → Nat
  | .mk _ _ _ _ _ _ _ _ _ _ _ _ _ _ none => 1
  | .mk _ _ _ _ _ _ _ _ _ _ _ _ _ _ (some children) => Element.depthAll children + 2

def Element.depthAll : List Element → Nat
  | [] => 0
  | e :: es => max e.depth (Element.depthAll es)

end

/-- The number of lists and objects of a layout that are one inside the other. -/
def Layout.depth (l : Layout) : Nat :=
  Element.depthAll l.elements + 2

theorem ElementField.mem_all (f : ElementField) : f ∈ all := by
  cases f <;> decide

theorem ElementField.nodup_all : all.Nodup := by
  decide

theorem LayoutField.mem_all (f : LayoutField) : f ∈ all := by
  cases f <;> decide

theorem LayoutField.nodup_all : all.Nodup := by
  decide

theorem getD_map_some {α : Type} (a : Option α) : (a.map some).getD none = a := by
  cases a <;> rfl

namespace Element

theorem depthAll_le {es : List Element} {n : Nat} : depthAll es ≤ n ↔ ∀ e ∈ es, e.depth ≤ n := by
  induction es with
  | nil => simp [depthAll]
  | cons e es ih => rw [depthAll, Nat.max_le, ih, List.forall_mem_cons]

theorem depth_eq (e : Element) :
    e.depth = match e.children with
      | none => 1
      | some children => depthAll children + 2 := by
  obtain ⟨kind, id, text, color, textColor, fontSize, height, cornerRadius, borderColor,
    borderWidth, paddingH, paddingV, actionName, align, _ | children⟩ := e <;> rfl

/-! ### Elements, field by field -/

/-- What is printed for a field. -/
def printed (e : Element) : ElementField → Option (List Char)
  | .type => some (printText e.kind.name)
  | .id => if e.id.isEmpty then none else some (printText e.id)
  | .text => e.text.map printText
  | .color => e.color.map printText
  | .textColor => e.textColor.map printText
  | .fontSize => e.fontSize.map fun i => printInt i.toInt
  | .height => e.height.map fun i => printInt i.toInt
  | .cornerRadius => e.cornerRadius.map fun i => printInt i.toInt
  | .borderColor => e.borderColor.map printText
  | .borderWidth => e.borderWidth.map fun i => printInt i.toInt
  | .paddingH => e.paddingH.map fun i => printInt i.toInt
  | .paddingV => e.paddingV.map fun i => printInt i.toInt
  | .actionName => e.actionName.map printText
  | .align => e.align.map fun a => printText a.name
  | .children => e.children.map fun es => printList (es.map Element.print)

/-- The fields that are printed, with their values. -/
def draft (e : Element) : Draft ElementField.Value
  | .type => some e.kind
  | .id => if e.id.isEmpty then none else some e.id
  | .text => e.text.map some
  | .color => e.color.map some
  | .textColor => e.textColor.map some
  | .fontSize => e.fontSize.map some
  | .height => e.height.map some
  | .cornerRadius => e.cornerRadius.map some
  | .borderColor => e.borderColor.map some
  | .borderWidth => e.borderWidth.map some
  | .paddingH => e.paddingH.map some
  | .paddingV => e.paddingV.map some
  | .actionName => e.actionName.map some
  | .align => e.align.map some
  | .children => e.children.map some

theorem ofDraft_draft (e : Element) : ofDraft e.draft = .ok e := by
  have hid : (if e.id.isEmpty then none else some e.id).getD "" = e.id := by
    cases h : e.id.isEmpty with
    | true => simp [String.isEmpty_iff.mp h]
    | false => rfl
  simp only [ofDraft, draft, getD_map_some, hid]
  cases e
  rfl

theorem printAll_eq_map (es : List Element) : printAll es = es.map Element.print := by
  induction es with
  | nil => rfl
  | cons e es ih => rw [printAll, ih, List.map_cons]

/-- All fields but the children. -/
def ownFields : List ElementField :=
  [.type, .id, .text, .color, .textColor, .fontSize, .height, .cornerRadius, .borderColor,
    .borderWidth, .paddingH, .paddingV, .actionName, .align]

theorem ownMembers_eq (e : Element) :
    e.ownMembers = printedMembers ElementField.name e.printed ownFields := by
  simp only [ownMembers, optionalMember, printedMembers, ownFields, List.flatMap_cons,
    List.flatMap_nil, List.append_nil, List.append_assoc, printed, ElementField.name,
    Option.map_map, Function.comp_def]
  split <;> rfl

theorem members_eq (e : Element) :
    printedMembers ElementField.name e.printed ElementField.all =
      e.ownMembers ++
        printedMembers ElementField.name e.printed [ElementField.children] := by
  rw [ownMembers_eq, printedMembers, printedMembers, printedMembers, ← List.flatMap_append]
  rfl

/-- An element is printed as an object of its fields. -/
theorem print_eq (e : Element) :
    e.print = printObject (printedMembers ElementField.name e.printed ElementField.all) := by
  rw [members_eq]
  obtain ⟨kind, id, text, color, textColor, fontSize, height, cornerRadius, borderColor,
    borderWidth, paddingH, paddingV, actionName, align, _ | children⟩ := e
  · rw [print, printedMembers]
    exact congrArg printObject (List.append_nil _).symm
  · rw [print, printAll_eq_map]
    rfl

theorem begins_print (e : Element) : Begins e.print := by
  rw [print_eq]
  exact Json.begins_printObject _

/-! ### Reading elements back -/

theorem readsBack_align (room : Bool) (a : Alignment) :
    ReadsBack (.variant room fun name => .ok (Alignment.ofName name)) (printText a.name) True a :=
  Json.readsBack_variant (by rw [Alignment.ofName_name])

/-- Whether a field fits if the children do. -/
def fieldFits (childrenFit : Prop) : ElementField → Prop
  | .children => childrenFit
  | _ => True

/-- An element is read back if it may be opened and its children are read back. -/
theorem readsBack_schema (e : Element) {room : Bool} {children : Reader (List Element)}
    {childrenFit : Prop}
    (hchildren : FieldBack children.optional childrenFit (e.printed .children)
      (e.draft .children)) :
    ReadsBack (Json.Schema.record elementTitle (some (elementSchema room children)) ofDraft) e.print
      childrenFit e := by
  have hback (f : ElementField) :
      FieldBack ((elementSchema room children).value f) (fieldFits childrenFit f) (e.printed f)
        (e.draft f) := by
    cases f with
    | type => exact .present (Json.readsBack_variant (by rw [Kind.ofName_name]))
    | id =>
      unfold printed draft
      split
      · exact .absent trivial
      · exact .present (Json.readsBack_text e.id)
    | text | color | textColor | borderColor | actionName =>
      exact Json.fieldBack_scalar Json.readsBack_text Json.begins_printText _
    | fontSize | height | cornerRadius | borderWidth | paddingH | paddingV =>
      exact Json.fieldBack_scalar Json.readsBack_int32 (fun i => Json.begins_printInt i.toInt) _
    | align =>
      exact Json.fieldBack_scalar (readsBack_align room) (fun a => Json.begins_printText a.name) _
    | children => exact hchildren
  have hfits : (∀ f, fieldFits childrenFit f) ↔ childrenFit :=
    ⟨fun h => h .children, fun h f => by cases f <;> first | exact h | trivial⟩
  have hrecord := Json.Schema.readsBack_record (S := elementSchema room children) elementTitle
    ElementField.mem_all ElementField.nodup_all (fun f => by cases f <;> rfl) hback e.ofDraft_draft
  rw [print_eq]
  rwa [propext hfits] at hrecord

theorem one_le_depth (e : Element) : 1 ≤ e.depth := by
  rw [depth_eq]
  split <;> omega

/-- Without children, an element is one object. -/
theorem depth_le_one {e : Element} : e.depth ≤ 1 ↔ ∀ es ∈ e.children, False := by
  rw [depth_eq]
  cases e.children <;> simp

/-- What is below an element is two deeper. -/
theorem depth_le_add_two {e : Element} {n : Nat} :
    e.depth ≤ n + 2 ↔ ∀ es ∈ e.children, ∀ c ∈ es, c.depth ≤ n := by
  rw [depth_eq]
  cases e.children <;> simp [depthAll_le]

/-- Printed elements are read back if they are no deeper than there is room. -/
theorem readsBack (room : Nat) (e : Element) :
    ReadsBack (elementReader room) e.print (e.depth ≤ room) e := by
  -- The induction follows the room: an element takes one of it, the list of its children another.
  induction room using elementReader.induct generalizing e with
  | case1 =>
    have hfits : e.depth ≤ 0 ↔ False := iff_of_false (Nat.not_le.mpr (one_le_depth e)) not_false
    rw [print_eq, propext hfits]
    exact Json.Schema.readsBack_record_none _ e
  | case2 =>
    have hnone (es : List Element) := Json.readsBack_list_none (es.map print) es
    rw [propext depth_le_one]
    exact readsBack_schema e <|
      Json.fieldBack_optional (fun es => ⟨hnone es, Json.begins_printList _⟩) e.children
  | case3 room ih =>
    have hlist (es : List Element) := Json.readsBack_list fun c (_ : c ∈ es) =>
      ⟨ih c, begins_print c⟩
    rw [propext depth_le_add_two]
    exact readsBack_schema e <|
      Json.fieldBack_optional (fun es => ⟨hlist es, Json.begins_printList _⟩) e.children

/-! ### The nesting of elements -/

theorem spans_own (e : Element) : ∀ f ∈ ownFields, ∀ value ∈ e.printed f, Spans value 0 := by
  intro f hf value hvalue
  cases f with
  | type => exact Option.some.inj hvalue ▸ Json.spans_printText _
  | id =>
    simp only [printed] at hvalue
    split at hvalue
    · cases hvalue
    · exact Option.some.inj hvalue ▸ Json.spans_printText _
  | text | color | textColor | borderColor | actionName =>
    obtain ⟨s, -, rfl⟩ := Option.map_eq_some_iff.mp hvalue
    exact Json.spans_printText s
  | fontSize | height | cornerRadius | borderWidth | paddingH | paddingV =>
    obtain ⟨i, -, rfl⟩ := Option.map_eq_some_iff.mp hvalue
    exact Json.spans_printInt i.toInt
  | align =>
    obtain ⟨a, -, rfl⟩ := Option.map_eq_some_iff.mp hvalue
    exact Json.spans_printText a.name
  | children => exact absurd hf (by decide)

theorem spansAll_print {es : List Element} (each : ∀ e ∈ es, Spans e.print e.depth) :
    SpansAll (es.map Element.print) (depthAll es) := by
  induction es with
  | nil => exact Json.spansAll_nil
  | cons e es ih =>
    have hrest := ih fun c hc => each c (List.mem_cons_of_mem e hc)
    exact SpansAll.cons (each e List.mem_cons_self) hrest

theorem spans_print_of_children {e : Element} {height : Nat}
    (h : SpansAll ((printedMembers ElementField.name e.printed [.children]).map printMember)
      height) : Spans e.print (height + 1) := by
  have hmembers := (Json.spansAll_printedMembers ElementField.name e.spans_own).append h
  rw [Nat.zero_max, ← List.map_append, ← ownMembers_eq, ← members_eq] at hmembers
  rw [print_eq]
  exact Json.spans_printObject hmembers

/-- A printed element has as many lists and objects open at once as it is deep. -/
theorem spans_print (e : Element) : Spans e.print e.depth := by
  induction e using Element.inductionOn with
  | step e ih =>
    rw [depth_eq]
    unfold childList at ih
    cases hchildren : e.children with
    | none =>
      refine spans_print_of_children ?_
      simp only [printedMembers, printed, hchildren]
      exact Json.spansAll_nil
    | some es =>
      rw [hchildren, Option.getD_some] at ih
      have hlist := Json.spans_printList (spansAll_print ih)
      refine spans_print_of_children ?_
      simp only [printedMembers, printed, hchildren]
      exact Json.spansAll_singleton (Json.spans_member hlist)

/-! ### What is read is not too deep -/

theorem forall_children_of_ofDraft {d : Draft ElementField.Value} {e : Element}
    {P : List Element → Prop} (hbuild : ofDraft d = .ok e)
    (h : ∀ value ∈ d .children, ∀ es ∈ value, P es) : ∀ es ∈ e.children, P es := by
  intro es hes
  unfold ofDraft at hbuild
  split at hbuild
  · cases hbuild
  · cases hbuild
    cases hchildren : d .children with
    | none =>
      simp only [hchildren] at hes
      cases hes
    | some value =>
      simp only [hchildren] at hes
      exact h value hchildren es hes

/-- No element is read that is deeper than there is room. -/
theorem ensures_reader (room : Nat) : (elementReader room).Ensures fun e => e.depth ≤ room := by
  induction room using elementReader.induct with
  | case1 =>
    intro s e r hrun
    exact absurd (Json.Schema.ensures_record_none hrun) not_false
  | case2 =>
    refine Json.Schema.record_ensures (f := ElementField.children)
      Json.ensures_list_none.optional ?_
    intro d e hbuild hchildren
    exact depth_le_one.mpr (forall_children_of_ofDraft hbuild hchildren)
  | case3 room ih =>
    refine Json.Schema.record_ensures (f := ElementField.children) ih.list.optional ?_
    intro d e hbuild hchildren
    exact depth_le_add_two.mpr (forall_children_of_ofDraft hbuild hchildren)

end Element

/-! ### Layouts -/

namespace Layout

/-- What is printed for a field. -/
def printed (l : Layout) : LayoutField → Option (List Char)
  | .backgroundColor => some (printText l.backgroundColor)
  | .scrollable => some (printBool l.scrollable)
  | .padding => l.padding.map fun i => printInt i.toInt
  | .elements => some (printList (l.elements.map Element.print))

/-- The fields that are printed, with their values. -/
def draft (l : Layout) : Draft LayoutField.Value
  | .backgroundColor => some l.backgroundColor
  | .scrollable => some l.scrollable
  | .padding => l.padding.map some
  | .elements => some l.elements

theorem ofDraft_draft (l : Layout) : ofDraft l.draft = .ok l := by
  simp only [ofDraft, draft, getD_map_some]
  rfl

/-- A layout is printed as an object of its fields. -/
theorem print_eq (l : Layout) :
    l.print = printObject (printedMembers LayoutField.name l.printed LayoutField.all) := by
  rw [print, Element.printAll_eq_map, optionalMember]
  simp only [printedMembers, LayoutField.all, List.flatMap_cons, List.flatMap_nil, List.append_nil,
    List.append_assoc, printed, LayoutField.name, Option.map_map, Function.comp_def]
  rfl

theorem depth_le_maxNesting {l : Layout} :
    l.depth ≤ maxNesting ↔ ∀ e ∈ l.elements, e.depth ≤ maxNesting - 2 := by
  rw [depth, ← Element.depthAll_le, maxNesting]
  omega

/-- Whether a field fits if the elements do. -/
def fieldFits (elementsFit : Prop) : LayoutField → Prop
  | .elements => elementsFit
  | _ => True

/-- Printed layouts are read back if they are no deeper than there is room. -/
theorem readsBack (l : Layout) : ReadsBack layoutReader l.print (l.depth ≤ maxNesting) l := by
  have helements := Json.readsBack_list fun e (_ : e ∈ l.elements) =>
    ⟨Element.readsBack (maxNesting - 2) e, Element.begins_print e⟩
  rw [← propext depth_le_maxNesting] at helements
  have hback (f : LayoutField) :
      FieldBack (LayoutField.reader (.list (some (elementReader (maxNesting - 2)))) f)
        (fieldFits (l.depth ≤ maxNesting) f) (l.printed f) (l.draft f) := by
    cases f with
    | backgroundColor => exact .present (Json.readsBack_text l.backgroundColor)
    | scrollable => exact .present (Json.readsBack_boolean l.scrollable)
    | padding =>
      exact Json.fieldBack_scalar Json.readsBack_int32 (fun i => Json.begins_printInt i.toInt) _
    | elements => exact .present helements
  have hfits : (∀ f, fieldFits (l.depth ≤ maxNesting) f) ↔ l.depth ≤ maxNesting :=
    ⟨fun h => h .elements, fun h f => by cases f <;> first | exact h | trivial⟩
  rw [print_eq, ← propext hfits]
  exact Json.Schema.readsBack_record layoutTitle LayoutField.mem_all LayoutField.nodup_all
    (fun f => by cases f <;> rfl) hback l.ofDraft_draft

/-- A printed layout has as many lists and objects open at once as it is deep. -/
theorem spans_print (l : Layout) : Spans l.print l.depth := by
  have hown : ∀ f ∈ [LayoutField.backgroundColor, .scrollable, .padding],
      ∀ value ∈ l.printed f, Spans value 0 := by
    intro f hf value hvalue
    cases f with
    | backgroundColor => exact Option.some.inj hvalue ▸ Json.spans_printText _
    | scrollable => exact Option.some.inj hvalue ▸ Json.spans_printBool _
    | padding =>
      obtain ⟨i, -, rfl⟩ := Option.map_eq_some_iff.mp hvalue
      exact Json.spans_printInt i.toInt
    | elements => exact absurd hf (by decide)
  have helements : SpansAll
      ((printedMembers LayoutField.name l.printed [.elements]).map printMember)
      (Element.depthAll l.elements + 1) :=
    Json.spansAll_singleton <| Json.spans_member <| Json.spans_printList <|
      Element.spansAll_print fun e _ => Element.spans_print e
  have hmembers := (Json.spansAll_printedMembers LayoutField.name hown).append helements
  rw [Nat.zero_max, ← List.map_append, printedMembers, printedMembers,
    ← List.flatMap_append] at hmembers
  rw [print_eq]
  exact Json.spans_printObject hmembers

theorem nesting_toJson (l : Layout) : Json.nesting l.toJson = l.depth :=
  Json.Spans.nesting_eq (by rw [toJson, String.toList_ofList]; exact l.spans_print)

/-- No layout is read that is deeper than there is room. -/
theorem ensures_reader : layoutReader.Ensures fun l => l.depth ≤ maxNesting := by
  refine Json.Schema.record_ensures (f := LayoutField.elements)
    (Element.ensures_reader (maxNesting - 2)).list ?_
  intro d l hbuild helements
  obtain rfl := Except.ok.inj hbuild
  rw [depth_le_maxNesting]
  cases hd : d .elements with
  | none => simp
  | some es => simpa using helements es hd

theorem readAll_toJson (l : Layout) :
    (l.depth ≤ maxNesting → ofJson l.toJson = .ok l) ∧
      (¬ l.depth ≤ maxNesting → ∃ e, ofJson l.toJson = .error e ∧ e.cause = .nestingLimit) :=
  Json.ReadsBack.readAll (by rw [toJson, String.toList_ofList]; exact l.readsBack)

/-- The text of a layout starts as configurations do. -/
theorem ingest_toJson {l : Layout} (h : ofJson l.toJson = .ok l) (s : Preview.Session) :
    s.ingest l.toJson = (.published, s.publish l) := by
  have hbrace : l.toJson.toList = '\x7b' :: (l.print.drop 1) := by
    rw [toJson, String.toList_ofList, print_eq, Json.printObject_eq_joined]
    rfl
  rw [Preview.Session.ingest, hbrace]
  simp only [h]

/-- **Layouts are read back.** The JSON text that is printed for a layout is read as that layout if
no more than 127 lists and objects are open at once in it, and otherwise fails for that. A layout
that has been read from any text is within the limit: it is read back from its own text, so that
nothing that is printed or made from it changes, and its text does as well as the one it was read
from. -/
theorem ofJson_toJson :
    (∀ l : Layout, Json.nesting l.toJson ≤ 127 → ofJson l.toJson = .ok l) ∧
    (∀ l : Layout, 127 < Json.nesting l.toJson →
      ∃ e, ofJson l.toJson = .error e ∧ e.cause = .nestingLimit) ∧
    ∀ (text : String) (l : Layout), ofJson text = .ok l →
      Json.nesting l.toJson ≤ 127 ∧ ofJson l.toJson = .ok l ∧
        (∀ l', ofJson l.toJson = .ok l' →
          l'.toJson = l.toJson ∧ l'.render = l.render ∧ ∀ o, l'.document o = l.document o) ∧
        (∀ o, convertText o l.toJson = convertText o text) ∧
        ∀ s : Preview.Session, s.ingest l.toJson = (.published, s.publish l) := by
  simp only [nesting_toJson]
  refine ⟨fun l => (readAll_toJson l).1, fun l hlimit => ?_, fun text l hread => ?_⟩
  · exact (readAll_toJson l).2 (Nat.not_le.mpr hlimit)
  · have hdepth : l.depth ≤ 127 := ensures_reader.readAll hread
    have hback := (readAll_toJson l).1 hdepth
    refine ⟨hdepth, hback, fun l' hread' => ?_, fun o => ?_, ingest_toJson hback⟩
    · obtain rfl : l = l' := Except.ok.inj (hback.symm.trans hread')
      exact ⟨rfl, rfl, fun _ => rfl⟩
    · rw [convertText, convertText, hback, hread]

/-- A layout of 62 cards, each the only child of the one before, around a text with the given
children. -/
def cards (children : Option (List Element)) : Layout where
  elements :=
    [Nat.repeat (fun child => { Element.ofKind .card with children := some [child] }) 62
      { Element.ofKind .text with children }]

/-- An empty list of children makes the difference. -/
theorem ofJson_toJson_cards :
    Json.nesting (cards none).toJson = 127 ∧
      ofJson (cards none).toJson = .ok (cards none) ∧
      Json.nesting (cards (some [])).toJson = 128 ∧
      ∃ e, ofJson (cards (some [])).toJson = .error e ∧ e.cause = .nestingLimit := by
  have hwithin : Json.nesting (cards none).toJson = 127 := by
    rw [nesting_toJson]
    decide +kernel
  have hbeyond : Json.nesting (cards (some [])).toJson = 128 := by
    rw [nesting_toJson]
    decide +kernel
  obtain ⟨hback, hlimit, -⟩ := ofJson_toJson
  exact ⟨hwithin, hback _ (Nat.le_of_eq hwithin), hbeyond, hlimit _ (by omega)⟩

end Layout

end LayoutCompiler.Config
