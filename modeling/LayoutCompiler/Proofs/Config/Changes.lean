import LayoutCompiler.Config.Reader
import LayoutCompiler.Proofs.Json.Members
import Mathlib.Logic.Relation

/-
Layouts of other versions. The members of the objects of a layout can be reordered, at every
depth, and members whose keys are no fields' names come and go, as do members that give
`null` for a field that may be absent. None of this changes what is read from the text of
the layout (`Layout.ofJson_changed`). Only the keys must be texts: half of a pair of
surrogates is none (`Layout.ofJson_halfKey`).

What an element means is what its object makes without the members that say nothing, with
its children read in the same way (`Element.meaning?`). Every change keeps the meaning, and
a layout in which no field is given twice is read as what it means.
-/

namespace LayoutCompiler.Config

open Json (Reader Draft Member GivenOnce MembersChange Settles Letter)

/-! ### Changes -/

/-- Whether a field may be `null`. -/
def ElementField.optional : ElementField → Bool
  | type | id => false
  | _ => true

def LayoutField.optional : LayoutField → Bool
  | padding => true
  | _ => false

/-- A change of an element or of one below it. -/
inductive ElementChange : Json.Value → Json.Value → Prop
  | members {ms ms' : List Member}
    (h : MembersChange ElementField.name ElementField.optional ms ms') :
    ElementChange (.object ms) (.object ms')
  | child {ms ms' : List Member} {letters : List Letter} {vs vs' : List Json.Value}
    {v v' : Json.Value}
    (hkey : Member.key? (letters, .list (vs ++ v :: vs')) = some ElementField.children.name)
    (h : ElementChange v v') :
    ElementChange (.object (ms ++ (letters, .list (vs ++ v :: vs')) :: ms'))
      (.object (ms ++ (letters, .list (vs ++ v' :: vs')) :: ms'))

/-- A change of a layout or of an element in it. -/
inductive LayoutChange : Json.Value → Json.Value → Prop
  | members {ms ms' : List Member}
    (h : MembersChange LayoutField.name LayoutField.optional ms ms') :
    LayoutChange (.object ms) (.object ms')
  | element {ms ms' : List Member} {letters : List Letter} {vs vs' : List Json.Value}
    {v v' : Json.Value}
    (hkey : Member.key? (letters, .list (vs ++ v :: vs')) = some LayoutField.elements.name)
    (h : ElementChange v v') :
    LayoutChange (.object (ms ++ (letters, .list (vs ++ v :: vs')) :: ms'))
      (.object (ms ++ (letters, .list (vs ++ v' :: vs')) :: ms'))

/-- The elements are objects, not lists, and none of them gives a field twice. -/
inductive Element.InObjectForm : Json.Value → Prop
  | object {ms : List Member} (once : GivenOnce ElementField.name ms)
    (below : ∀ m ∈ ms, m.key? = some ElementField.children.name → ∀ vs, m.2 = .list vs →
      ∀ v ∈ vs, InObjectForm v) :
    InObjectForm (.object ms)
  | scalar {v : Json.Value} (list : ∀ vs, v ≠ .list vs) (object : ∀ ms, v ≠ .object ms) :
    InObjectForm v

/-- The layout and the elements are objects, not lists, and none of them gives a field twice. -/
inductive Layout.InObjectForm : Json.Value → Prop
  | object {ms : List Member} (once : GivenOnce LayoutField.name ms)
    (below : ∀ m ∈ ms, m.key? = some LayoutField.elements.name → ∀ vs, m.2 = .list vs →
      ∀ v ∈ vs, Element.InObjectForm v) :
    InObjectForm (.object ms)

/-! ### What elements mean -/

/-- What the value of a field means; `children` reads the list of the children. -/
def ElementField.meaning? (room : Bool) (children : Json.Value → Option (List Element)) :
    (f : ElementField) → Json.Value → Option (Value f)
  | type => Json.Value.variant? room fun name => .ok (Kind.ofName name)
  | id => Json.Value.text?
  | text | color | textColor | borderColor | actionName => Json.Value.optional? Json.Value.text?
  | fontSize | height | cornerRadius | borderWidth | paddingH | paddingV =>
    Json.Value.optional? Json.Value.int32?
  | align =>
    Json.Value.optional? (Json.Value.variant? room fun name => .ok (Alignment.ofName name))
  | ElementField.children => Json.Value.optional? children

namespace Element

/-- What an element means where `room` more objects and lists may be opened. -/
def meaning? : (room : Nat) → Json.Value → Option Element
  | 0 => fun _ => none
  | 1 =>
    (elementSchema false (.list none)).meaning? ElementField.optional
      (ElementField.meaning? false fun _ => none) ofDraft
  | room + 2 =>
    (elementSchema true (.list (some (elementReader room)))).meaning? ElementField.optional
      (ElementField.meaning? true (Json.Value.list? (meaning? room))) ofDraft

theorem field?_name (room : Bool) (children : Reader (List Element)) (f : ElementField) :
    (elementSchema room children).field? ((elementSchema room children).name f) = some f := by
  cases f <;> rfl

theorem getD_of_fills {α : Type} {a b : Option (Option α)} {P : Prop}
    (h : a = b ∨ P ∧ b = none ∧ a = some none) : a.getD none = b.getD none := by
  rcases h with rfl | ⟨-, rfl, rfl⟩ <;> rfl

/-- An element is the same whether a field is `null` or absent. -/
theorem ofDraft_of_fills {room : Bool} {children : Json.Value → Option (List Element)}
    {d d' : Draft ElementField.Value}
    (h : Json.Schema.Fills ElementField.optional (ElementField.meaning? room children) d d') :
    ofDraft d = ofDraft d' := by
  have htype : d .type = d' .type := by simpa [ElementField.optional] using h .type
  have hid : d .id = d' .id := by simpa [ElementField.optional] using h .id
  simp only [ofDraft, htype, hid, getD_of_fills (h .text), getD_of_fills (h .color),
    getD_of_fills (h .textColor), getD_of_fills (h .fontSize), getD_of_fills (h .height),
    getD_of_fills (h .cornerRadius), getD_of_fills (h .borderColor),
    getD_of_fills (h .borderWidth), getD_of_fills (h .paddingH), getD_of_fills (h .paddingV),
    getD_of_fills (h .actionName), getD_of_fills (h .align), getD_of_fills (h .children)]

/-- An element is read as what it means if its children are. -/
theorem settles_schema {room : Bool} {children : Reader (List Element)}
    {M : Json.Value → Option (List Element)} {ms : List Member}
    (honce : GivenOnce ElementField.name ms)
    (h : ∀ m ∈ ms, m.key? = some ElementField.children.name → Settles children m.2 (M m.2)) :
    Settles (Json.Schema.record elementTitle (some (elementSchema room children)) ofDraft)
      (.object ms)
      ((elementSchema room children).meaning? ElementField.optional
        (ElementField.meaning? room M) ofDraft (.object ms)) := by
  refine Json.Schema.settles_meaning elementTitle ?_ (fun d d' => ofDraft_of_fills) honce ?_
  · intro f hf
    cases f <;> first | rfl | cases hf
  · intro m hm f hf
    have hkey := Json.Schema.key?_of_given? hf
    cases f with
    | type => exact Json.settles_variant _ _ _
    | id => exact Json.settles_text _
    | text | color | textColor | borderColor | actionName =>
      exact (Json.settles_text _).optional
    | fontSize | height | cornerRadius | borderWidth | paddingH | paddingV =>
      exact (Json.settles_int32 _).optional
    | align => exact (Json.settles_variant _ _ _).optional
    | children => exact (h m hm hkey).optional

theorem settles_children {room : Nat} {v : Json.Value}
    (h : ∀ vs, v = .list vs → ∀ c ∈ vs, Settles (elementReader room) c (meaning? room c)) :
    Settles (.list (some (elementReader room))) v (v.list? (meaning? room)) := by
  cases v with
  | list vs => exact Json.settles_list (h vs rfl)
  | null | boolean | number | text | object =>
    exact Json.settles_list_other _ (.inr (by simp))

theorem meaning?_of_not_object (room : Nat) {v : Json.Value} (h : ∀ ms, v ≠ .object ms) :
    meaning? room v = none := by
  match room with
  | 0 => rfl
  | 1 => exact Json.Schema.meaning?_of_not_object ofDraft h
  | room + 2 => exact Json.Schema.meaning?_of_not_object ofDraft h

/-- In object form, elements are read as what they mean. -/
theorem settles (room : Nat) {v : Json.Value} (h : InObjectForm v) :
    Settles (elementReader room) v (meaning? room v) := by
  cases h with
  | scalar hlist hobject =>
    rw [meaning?_of_not_object room hobject]
    match room with
    | 0 => exact Json.Schema.settles_record_other _ _ _ (.inl rfl)
    | 1 => exact Json.Schema.settles_record_other _ _ _ (.inr ⟨hlist, hobject⟩)
    | room + 2 => exact Json.Schema.settles_record_other _ _ _ (.inr ⟨hlist, hobject⟩)
  | object honce hbelow =>
    match room with
    | 0 => exact Json.Schema.settles_record_other _ _ _ (.inl rfl)
    | 1 => exact settles_schema honce fun m _ _ => Json.settles_list_other _ (.inl rfl)
    | room + 2 =>
      refine settles_schema honce fun m hm hkey => settles_children fun vs hvs c hc => ?_
      exact settles room (hbelow m hm hkey vs hvs c hc)

/-- Changes keep what an element means. -/
theorem meaning?_of_change {v v' : Json.Value} (h : ElementChange v v') (room : Nat) :
    meaning? room v = meaning? room v' := by
  -- The room is general, as there is less of it for a child.
  induction h generalizing room with
  | members h =>
    match room with
    | 0 => rfl
    | 1 => exact Json.Schema.meaning?_of_change (field?_name _ _) ofDraft h
    | room + 2 => exact Json.Schema.meaning?_of_change (field?_name _ _) ofDraft h
  | child hkey _ ih =>
    match room with
    | 0 => rfl
    | 1 =>
      refine Json.Schema.meaning?_of_member (f := .children) (field?_name _ _) ofDraft hkey ?_ ?_ ?_
        _ _ <;> rfl
    | room + 2 =>
      refine Json.Schema.meaning?_of_member (f := .children) (field?_name _ _) ofDraft hkey rfl rfl
        ?_ _ _
      simp [ElementField.meaning?, Json.Value.optional?, Json.Value.list?, List.mapM_append,
        ih room]

end Element

/-! ### What layouts mean -/

/-- What the value of a field means; `elements` reads the list of the elements. -/
def LayoutField.meaning? (elements : Json.Value → Option (List Element)) :
    (f : LayoutField) → Json.Value → Option (Value f)
  | backgroundColor => Json.Value.text?
  | scrollable => Json.Value.boolean?
  | padding => Json.Value.optional? Json.Value.int32?
  | LayoutField.elements => elements

namespace Layout

/-- The form of a layout. -/
def schema : Json.Schema LayoutField LayoutField.Value :=
  ⟨LayoutField.all, LayoutField.name,
    LayoutField.reader (.list (some (elementReader (maxNesting - 2))))⟩

/-- What a layout means. -/
def meaning? : Json.Value → Option Layout :=
  schema.meaning? LayoutField.optional
    (LayoutField.meaning? (Json.Value.list? (Element.meaning? (maxNesting - 2)))) ofDraft

theorem field?_name (f : LayoutField) : schema.field? (schema.name f) = some f := by
  cases f <;> rfl

/-- A layout is the same whether its padding is `null` or absent. -/
theorem ofDraft_of_fills {elements : Json.Value → Option (List Element)}
    {d d' : Draft LayoutField.Value}
    (h : Json.Schema.Fills LayoutField.optional (LayoutField.meaning? elements) d d') :
    ofDraft d = ofDraft d' := by
  have hbackground : d .backgroundColor = d' .backgroundColor := by
    simpa [LayoutField.optional] using h .backgroundColor
  have hscrollable : d .scrollable = d' .scrollable := by
    simpa [LayoutField.optional] using h .scrollable
  have helements : d .elements = d' .elements := by
    simpa [LayoutField.optional] using h .elements
  simp only [ofDraft, hbackground, hscrollable, helements, Element.getD_of_fills (h .padding)]

/-- In object form, a layout is read as what it means. -/
theorem settles {v : Json.Value} (h : InObjectForm v) : Settles layoutReader v (meaning? v) := by
  cases h with
  | object honce hbelow =>
    refine Json.Schema.settles_meaning layoutTitle ?_ (fun d d' => ofDraft_of_fills) honce ?_
    · intro f hf
      cases f <;> first | rfl | cases hf
    · intro m hm f hf
      have hkey := Json.Schema.key?_of_given? hf
      cases f with
      | backgroundColor => exact Json.settles_text _
      | scrollable => exact Json.settles_boolean _
      | padding => exact (Json.settles_int32 _).optional
      | elements =>
        exact Element.settles_children fun vs hvs c hc =>
          Element.settles _ (hbelow m hm hkey vs hvs c hc)

/-- Changes keep what a layout means. -/
theorem meaning?_of_change {v v' : Json.Value} (h : LayoutChange v v') :
    meaning? v = meaning? v' := by
  cases h with
  | members h => exact Json.Schema.meaning?_of_change field?_name ofDraft h
  | element hkey h =>
    refine Json.Schema.meaning?_of_member (f := .elements) field?_name ofDraft hkey rfl rfl ?_ _ _
    simp [LayoutField.meaning?, Json.Value.list?, List.mapM_append, Element.meaning?_of_change h]

theorem meaning?_of_changes {v v' : Json.Value} (h : Relation.ReflTransGen LayoutChange v v') :
    meaning? v = meaning? v' := by
  induction h with
  | refl => rfl
  | tail _ h ih => exact ih.trans (meaning?_of_change h)

/-- **Layouts of other versions are read alike.** Layouts that come from one another by changes that
make no difference, in themselves and in elements at any depth, are both read or both refused, and
read as the same layout, whatever spelling each of them has. -/
theorem ofJson_changed {v v' : Json.Value} (hv : InObjectForm v) (hv' : InObjectForm v')
    (hchanges : Relation.ReflTransGen LayoutChange v v') {text text' : String}
    (htext : v.Spells text) (htext' : v'.Spells text') (l : Layout) :
    ofJson text = .ok l ↔ ofJson text' = .ok l := by
  -- A layout in between may give a field twice: it cannot be read, but it has a meaning.
  rw [ofJson, ofJson, (settles hv).readAll htext, (settles hv').readAll htext',
    meaning?_of_changes hchanges]

/-! A layout with one text, and the same layout with all kinds of changes. -/

/-- A member whose key needs no escapes. -/
def plainMember (key : String) (v : Json.Value) : Member :=
  (Letter.plains key, v)

def kindMember : Member :=
  plainMember "type" (.text (Letter.plains "text"))

def textMember : Member :=
  plainMember "text" (.text (Letter.plains "Hi"))

def scrollableMember : Member :=
  plainMember "scrollable" (.boolean true)

def elementsMember (element : List Member) : Member :=
  plainMember "elements" (.list [.object element])

/-- A number that is out of range and half of a pair of surrogates. -/
def versionMember : Member :=
  plainMember "version" (.list
    [.number
      { negative := false
        whole := ⟨['1'], by simp, rfl⟩
        zero := by decide
        fraction := none
        exponent := some ⟨'e', .inl rfl, [], .inl rfl, ⟨['9', '9', '9'], by simp, rfl⟩⟩ },
      .text [.code ['d', '8', '0', '0'] 0xD800 rfl rfl]])

def sinceMember : Member :=
  plainMember "since" (.object [kindMember, kindMember])

def greeting : Json.Value :=
  .object [elementsMember [kindMember, textMember], scrollableMember]

def changedGreeting : Json.Value :=
  .object [scrollableMember, versionMember, plainMember "padding" .null,
    elementsMember [textMember, sinceMember, kindMember, plainMember "color" .null]]

def greetingText : String :=
  "\x7b\"elements\":[\x7b\"type\":\"text\"," ++ "\"text\":\"Hi\"\x7d],\"scrollable\":true\x7d"

def changedGreetingText : String :=
  "\x7b \"scrollable\": true,\n" ++
    "  \"version\": [1e999, \"\\ud800\"], \"padding\": null,\n" ++
    "  \"elements\": [\x7b \"text\": \"Hi\",\n" ++
    "    \"since\": \x7b\"type\": \"text\", \"type\": \"text\"\x7d,\n" ++
    "    \"type\": \"text\", \"color\": null \x7d] \x7d\n"

def greetingLayout : Layout where
  scrollable := true
  elements := [{ Element.ofKind .text with text := some "Hi" }]

theorem inObjectForm_element {ms : List Member} (h : (ms.map Member.key?).Nodup)
    (hkeys : ∀ m ∈ ms, m.key? ≠ some ElementField.children.name) :
    Element.InObjectForm (.object ms) :=
  .object (Json.givenOnce_of_nodup h) fun m hm hkey => absurd hkey (hkeys m hm)

theorem inObjectForm_layout (ms : List Member) {ms' element : List Member}
    (h : ((ms ++ elementsMember element :: ms').map Member.key?).Nodup)
    (helement : Element.InObjectForm (.object element))
    (hkeys : ∀ m ∈ ms ++ ms', m.key? ≠ some LayoutField.elements.name) :
    InObjectForm (.object (ms ++ elementsMember element :: ms')) := by
  refine .object (Json.givenOnce_of_nodup h) fun m hm hkey vs hvs v hv => ?_
  rcases List.mem_cons.mp (List.perm_middle.mem_iff.mp hm) with rfl | hm
  · cases hvs
    rwa [List.mem_singleton.mp hv]
  · exact absurd hkey (hkeys m hm)

/-- The members of the layout are reordered, and two are added. -/
theorem greeting_changes : Relation.ReflTransGen LayoutChange greeting
    (.object [scrollableMember, versionMember, plainMember "padding" .null,
      elementsMember [kindMember, textMember]]) := by
  have hreorder : LayoutChange greeting
      (.object [scrollableMember, elementsMember [kindMember, textMember]]) :=
    .members (.reordered (.swap _ _ _))
  have hversion : LayoutChange
      (.object [scrollableMember, elementsMember [kindMember, textMember]])
      (.object [scrollableMember, versionMember, elementsMember [kindMember, textMember]]) :=
    .members (@MembersChange.added _ _ _ [scrollableMember] _ _
      (.unknown (show versionMember.key? = some "version" by decide) fun f => by
        cases f <;> decide))
  have hpadding : LayoutChange
      (.object [scrollableMember, versionMember, elementsMember [kindMember, textMember]])
      (.object [scrollableMember, versionMember, plainMember "padding" .null,
        elementsMember [kindMember, textMember]]) :=
    .members (@MembersChange.added _ _ _ [scrollableMember, versionMember] _ _
      (.null (f := .padding) (by decide) rfl))
  exact .tail (.tail (.single hreorder) hversion) hpadding

/-- The members of the element are reordered, and two are added. -/
theorem greetingElement_changes : Relation.ReflTransGen ElementChange
    (.object [kindMember, textMember])
    (.object [textMember, sinceMember, kindMember, plainMember "color" .null]) := by
  have hreorder : ElementChange (.object [kindMember, textMember])
      (.object [textMember, kindMember]) :=
    .members (.reordered (.swap _ _ _))
  have hsince : ElementChange (.object [textMember, kindMember])
      (.object [textMember, sinceMember, kindMember]) :=
    .members (@MembersChange.added _ _ _ [textMember] _ _
      (.unknown (show sinceMember.key? = some "since" by decide) fun f => by
        cases f <;> decide))
  have hcolor : ElementChange (.object [textMember, sinceMember, kindMember])
      (.object [textMember, sinceMember, kindMember, plainMember "color" .null]) :=
    .members (@MembersChange.added _ _ _ [textMember, sinceMember, kindMember] [] _
      (.null (f := .color) (by decide) rfl))
  exact .tail (.tail (.single hreorder) hsince) hcolor

/-- What is read does not depend on the order of the members or on those that say nothing. -/
theorem ofJson_changed_greeting :
    ofJson greetingText = .ok greetingLayout ∧ ofJson changedGreetingText = .ok greetingLayout := by
  have hform : InObjectForm greeting :=
    inObjectForm_layout [] (by decide) (inObjectForm_element (by decide) (by decide))
      (by decide)
  have hform' : InObjectForm changedGreeting :=
    inObjectForm_layout [scrollableMember, versionMember, plainMember "padding" .null]
      (by decide) (inObjectForm_element (by decide) (by decide)) (by decide)
  have hspells : greeting.Spells greetingText := by
    unfold Json.Value.Spells greetingText
    rw [String.toList_append]
    exact Json.spaced_of_spaced? (by decide +kernel)
  have hspells' : changedGreeting.Spells changedGreetingText := by
    unfold Json.Value.Spells changedGreetingText
    rw [String.toList_append, String.toList_append, String.toList_append, String.toList_append]
    exact Json.spaced_of_spaced? (by decide +kernel)
  have hread : ofJson greetingText = .ok greetingLayout :=
    ((settles hform).readAll hspells greetingLayout).mpr rfl
  have hbelow (v v' : Json.Value) (h : ElementChange v v') :
      LayoutChange
        (.object [scrollableMember, versionMember, plainMember "padding" .null,
          plainMember "elements" (.list [v])])
        (.object [scrollableMember, versionMember, plainMember "padding" .null,
          plainMember "elements" (.list [v'])]) :=
    @LayoutChange.element [scrollableMember, versionMember, plainMember "padding" .null] []
      (Letter.plains "elements") [] [] v v' rfl h
  have hchanges : Relation.ReflTransGen LayoutChange greeting changedGreeting :=
    greeting_changes.trans (greetingElement_changes.lift _ hbelow)
  exact ⟨hread, (ofJson_changed hform hform' hchanges hspells hspells' greetingLayout).mp hread⟩

/-- A member whose key is half of a pair of surrogates. -/
def halfKeyMember : Member :=
  ([.code ['d', '8', '0', '0'] 0xD800 rfl rfl], .boolean true)

/-- A key that is no text is no field's name, but it does make a difference: an object with such a
member is not read at all. -/
theorem ofJson_halfKey :
    InObjectForm (.object []) ∧ InObjectForm (.object [halfKeyMember]) ∧
      (∀ f : LayoutField, halfKeyMember.key? ≠ some f.name) ∧
      Json.Value.Spells (.object []) "\x7b\x7d" ∧
      Json.Value.Spells (.object [halfKeyMember]) "\x7b\"\\ud800\":true\x7d" ∧
      ofJson "\x7b\x7d" = .ok {} ∧ ∀ l, ofJson "\x7b\"\\ud800\":true\x7d" ≠ .ok l := by
  have hform : InObjectForm (.object []) :=
    .object (Json.givenOnce_of_nodup List.nodup_nil) fun m hm => absurd hm List.not_mem_nil
  have hform' : InObjectForm (.object [halfKeyMember]) :=
    .object (Json.givenOnce_of_nodup (by decide)) fun m hm hkey => by
      rw [List.mem_singleton.mp hm] at hkey
      exact absurd hkey (by decide)
  have hspells : Json.Value.Spells (.object []) "\x7b\x7d" :=
    Json.spaced_of_spaced? (by decide +kernel)
  have hspells' : Json.Value.Spells (.object [halfKeyMember]) "\x7b\"\\ud800\":true\x7d" :=
    Json.spaced_of_spaced? (by decide +kernel)
  refine ⟨hform, hform', fun f => by cases f <;> decide, hspells, hspells', ?_, fun l hl => ?_⟩
  · exact ((settles hform).readAll hspells {}).mpr rfl
  · exact nomatch ((settles hform').readAll hspells' l).mp hl

end Layout

end LayoutCompiler.Config
