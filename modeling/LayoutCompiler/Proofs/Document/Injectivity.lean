import LayoutCompiler.Proofs.Content
import LayoutCompiler.Proofs.Document.Flattening
import Mathlib.Data.Set.Operations

/-
Documents lose nothing but lengths. The operations of an element tell where it ends and
what kind it is: texts are the only texts outside of boxes, buttons the only boxes with
centered content, a card is the only box that goes on with a column, and a divider has
a background where a spacer has none. So the operations of elements inside a container
determine the elements up to their lengths (`determined_of_injOn`), and with them the bytes
of a document determine its screen (`withoutLengths_of_encode`).
-/

namespace LayoutCompiler

/-! ### Screens without lengths -/

def Border.withoutWidth (b : Border) : Border :=
  { b with width := 0 }

namespace Element

mutual

/-- An element with zero for every length, in itself and in all that is below it. -/
def withoutLengths : Element → Element
  | .text t => .text { t with fontSize := 0, padding := ⟨0, 0⟩, bottomMargin := 0 }
  | .button b =>
    .button { b with
      cornerRadius := 0, fontSize := 0, padding := ⟨0, 0⟩,
      border := b.border.map Border.withoutWidth }
  | .spacer _ => .spacer 0
  | .divider _ color => .divider 0 color
  | .card c children =>
    .card { c with
      cornerRadius := 0, padding := ⟨0, 0⟩, border := c.border.map Border.withoutWidth }
      (withoutLengthsAll children)
  | .row _ children => .row 0 (withoutLengthsAll children)

def withoutLengthsAll : List Element → List Element
  | [] => []
  | e :: es => e.withoutLengths :: withoutLengthsAll es

end

end Element

/-- A screen with zero for every length. -/
def Screen.withoutLengths (s : Screen) : Screen :=
  { s with padding := 0, elements := Element.withoutLengthsAll s.elements }

namespace Document

/-! ### What modifiers tell -/

/-- Whether a modifier says more of an element than its kind and its lengths. -/
def Modifier.tells : Modifier → Bool
  | .background _ | .border _ _ _ | .onClick _ => true
  | .fillMaxSize | .fillMaxWidth | .verticalScroll | .padding _ _ _ _ | .height _ | .clip _ => false

section Modifiers

variable (o : Options)

theorem filter_borders (border : Option Border) (outline : Outline) :
    (o.borders border outline).filter Modifier.tells = o.borders border outline := by
  cases border <;> rfl

theorem filter_paddingUnlessEmpty (p : Padding) :
    (o.paddingUnlessEmpty p).filter Modifier.tells = [] := by
  unfold Options.paddingUnlessEmpty
  split <;> rfl

theorem filter_rootModifiers (s : Screen) :
    (rootModifiers o s).filter Modifier.tells = [.background s.background] := by
  unfold rootModifiers
  split <;> rfl

theorem filter_buttonModifiers (parent : Parent) (b : Element.Button) (action : HostAction) :
    (buttonModifiers o parent b action).filter Modifier.tells =
      .background b.background ::
        (o.borders b.border (o.rounded b.cornerRadius) ++ [.onClick action]) := by
  have hwidth : (if parent.stretchesButtons then [Modifier.fillMaxWidth] else []).filter
      Modifier.tells = [] := by
    split <;> rfl
  rw [buttonModifiers, List.filter_append, List.filter_append, List.filter_append, hwidth,
    filter_borders]
  rfl

theorem filter_cardModifiers (c : Element.Card) (action : Option HostAction) :
    (cardModifiers o c action).filter Modifier.tells =
      o.borders c.border (o.rounded c.cornerRadius) ++
        .background c.background :: (action.map Modifier.onClick).toList := by
  have hclip : (if 0 < c.cornerRadius then [Modifier.clip (o.rounded c.cornerRadius)]
      else []).filter Modifier.tells = [] := by
    split <;> rfl
  have haction : (action.map Modifier.onClick).toList.filter Modifier.tells =
      (action.map Modifier.onClick).toList := by
    cases action <;> rfl
  simp only [cardModifiers, List.filter_append, filter_borders, hclip, haction,
    filter_paddingUnlessEmpty, List.append_nil, List.append_assoc]
  rfl

variable {o}

/-- A border is told by what stands before the next modifier. -/
theorem borders_append_inj {border border' : Option Border} {outline outline' : Outline}
    {m m' : Modifier} {rest rest' : List Modifier} (hm : ∀ w color x, m ≠ .border w color x)
    (hm' : ∀ w color x, m' ≠ .border w color x)
    (h : o.borders border outline ++ m :: rest = o.borders border' outline' ++ m' :: rest') :
    border.map Border.withoutWidth = border'.map Border.withoutWidth ∧ m = m' ∧ rest = rest' := by
  cases border with
  | none =>
    cases border' with
    | none => exact ⟨rfl, List.cons.inj h⟩
    | some b' => exact absurd (List.cons.inj h).1 (hm _ _ _)
  | some b =>
    cases border' with
    | none => exact absurd (List.cons.inj h).1.symm (hm' _ _ _)
    | some b' =>
      obtain ⟨hborder, hrest⟩ := List.cons.inj h
      have hcolor : b.color = b'.color := (Modifier.border.inj hborder).2.1
      exact ⟨congrArg (fun color => some (Border.mk 0 color)) hcolor, List.cons.inj hrest⟩

end Modifiers

/-! ### What the operations of elements tell -/

section Operations

variable (o : Options) (number : String → TextId) (named : Set String)

/-- Whatever follows them, the operations of `e` are those of no other element with numbered texts,
but for lengths, and they end where those of `e` end. -/
def Determined (parent : Parent) (e : Element) : Prop :=
  ∀ e' rest rest', (∀ t ∈ stringsOf e', t ∈ named) →
    operationsOf o number parent e ++ rest = operationsOf o number parent e' ++ rest' →
      e.withoutLengths = e'.withoutLengths ∧ rest = rest'

/-- No element begins with the end of a container. -/
theorem operationsOf_append_ne (parent : Parent) (e : Element) (rest rest' : List Operation) :
    operationsOf o number parent e ++ rest ≠ .containerEnd :: rest' := by
  cases e <;> simp [operationsOf]

/-- The end of their container tells where a list of elements ends. -/
theorem withoutLengthsAll_of_operationsOfAll {parent : Parent} {es es' : List Element}
    (each : ∀ e ∈ es, Determined o number named parent e)
    (hnamed : ∀ t ∈ stringsOfAll es', t ∈ named) {rest rest' : List Operation}
    (h : operationsOfAll o number parent es ++ .containerEnd :: rest =
      operationsOfAll o number parent es' ++ .containerEnd :: rest') :
    Element.withoutLengthsAll es = Element.withoutLengthsAll es' ∧ rest = rest' := by
  -- One list cannot end where the other goes on, since no element begins with the end.
  induction es generalizing es' with
  | nil =>
    cases es' with
    | nil => exact ⟨rfl, (List.cons.inj h).2⟩
    | cons e' es' =>
      rw [operationsOfAll, operationsOfAll, List.append_assoc] at h
      exact absurd h.symm (operationsOf_append_ne o number parent e' _ rest)
  | cons e es ih =>
    cases es' with
    | nil =>
      rw [operationsOfAll, operationsOfAll, List.append_assoc] at h
      exact absurd h (operationsOf_append_ne o number parent e _ rest')
    | cons e' es' =>
      rw [operationsOfAll, operationsOfAll, List.append_assoc, List.append_assoc] at h
      rw [stringsOfAll_cons] at hnamed
      obtain ⟨hfirst, hrest⟩ := each e List.mem_cons_self e' _ _
        (fun t ht => hnamed t (List.mem_append_left _ ht)) h
      obtain ⟨hbelow, hend⟩ := ih (fun e he => each e (List.mem_cons_of_mem _ he))
        (fun t ht => hnamed t (List.mem_append_right _ ht)) hrest
      rw [Element.withoutLengthsAll, Element.withoutLengthsAll, hfirst, hbelow]
      exact ⟨rfl, hend⟩

variable {o number named}

theorem mem_of_ownStrings {e : Element} (h : ∀ t ∈ stringsOf e, t ∈ named) :
    ∀ t ∈ ownStrings e, t ∈ named := by
  intro t ht
  apply h
  rw [stringsOf_eq]
  exact List.mem_append_left _ ht

theorem mem_of_stringsOfAll {e : Element} (h : ∀ t ∈ stringsOf e, t ∈ named) :
    ∀ t ∈ stringsOfAll e.children, t ∈ named := by
  intro t ht
  apply h
  rw [stringsOf_eq]
  exact List.mem_append_right _ ht

section Elements

variable {parent : Parent} (hinj : Set.InjOn number named)

include hinj

theorem name_eq_of_actionNamed {name name' : String} (hn : name ∈ named) (hn' : name' ∈ named)
    (h : actionNamed number name = actionNamed number name') : name = name' :=
  hinj hn hn' (congrArg HostAction.name h)

theorem names_eq_of_clicks {action action' : Option String}
    (hn : ∀ t ∈ action, t ∈ named) (hn' : ∀ t ∈ action', t ∈ named)
    (h : ((action.map (actionNamed number)).map Modifier.onClick).toList =
      ((action'.map (actionNamed number)).map Modifier.onClick).toList) :
    action = action' := by
  cases action with
  | none =>
    cases action' with
    | none => rfl
    | some name' => cases h
  | some name =>
    cases action' with
    | none => cases h
    | some name' =>
      have hclick := Modifier.onClick.inj (List.cons.inj h).1
      exact congrArg some (name_eq_of_actionNamed hinj (hn _ rfl) (hn' _ rfl) hclick)

theorem text_withoutLengths_of_run {t t' : Element.Text}
    (hn : t.text ∈ named) (hn' : t'.text ∈ named)
    (h : runOfText o (number t.text) t = runOfText o (number t'.text) t') :
    (Element.text t).withoutLengths = (Element.text t').withoutLengths := by
  have htext : t.text = t'.text := hinj hn hn' (congrArg TextRun.text h)
  have hcolor : t.color = t'.color := congrArg TextRun.color h
  simp only [Element.withoutLengths, htext, hcolor]

theorem button_withoutLengths_of_modifiers {b b' : Element.Button}
    (hn : b.action ∈ named ∧ b.label ∈ named) (hn' : b'.action ∈ named ∧ b'.label ∈ named)
    (hmodifiers : buttonModifiers o parent b (actionNamed number b.action) =
      buttonModifiers o parent b' (actionNamed number b'.action))
    (hrun : runOfLabel o (number b.label) b = runOfLabel o (number b'.label) b') :
    (Element.button b).withoutLengths = (Element.button b').withoutLengths := by
  have hlabel : b.label = b'.label := hinj hn.2 hn'.2 (congrArg TextRun.text hrun)
  have hcolor : b.textColor = b'.textColor := congrArg TextRun.color hrun
  have htold := congrArg (List.filter Modifier.tells) hmodifiers
  rw [filter_buttonModifiers, filter_buttonModifiers] at htold
  obtain ⟨hbackground, htold⟩ := List.cons.inj htold
  obtain ⟨hborder, hclick, -⟩ := borders_append_inj (by simp) (by simp) htold
  have hname := name_eq_of_actionNamed hinj hn.1 hn'.1 (Modifier.onClick.inj hclick)
  simp only [Element.withoutLengths, hlabel, hcolor, hname, Modifier.background.inj hbackground,
    hborder]

theorem card_withoutLengths_of_modifiers {c c' : Element.Card} {children children' : List Element}
    (hn : ∀ t ∈ c.action, t ∈ named) (hn' : ∀ t ∈ c'.action, t ∈ named)
    (hmodifiers : cardModifiers o c (c.action.map (actionNamed number)) =
      cardModifiers o c' (c'.action.map (actionNamed number)))
    (halign : c.align = c'.align)
    (hbelow : Element.withoutLengthsAll children = Element.withoutLengthsAll children') :
    (Element.card c children).withoutLengths = (Element.card c' children').withoutLengths := by
  have htold := congrArg (List.filter Modifier.tells) hmodifiers
  rw [filter_cardModifiers, filter_cardModifiers] at htold
  obtain ⟨hborder, hbackground, hclicks⟩ := borders_append_inj (by simp) (by simp) htold
  have hname := names_eq_of_clicks hinj hn hn' hclicks
  simp only [Element.withoutLengths, hname, halign, hbelow, Modifier.background.inj hbackground,
    hborder]

theorem determined_text {t : Element.Text} (hn : t.text ∈ named) :
    Determined o number named parent (.text t) := by
  intro e' rest rest' hnamed' h
  cases e' with
  | text t' =>
    have hn' := mem_of_ownStrings hnamed' t'.text List.mem_cons_self
    obtain ⟨hrun, hrest⟩ := List.cons.inj h
    exact ⟨text_withoutLengths_of_run hinj hn hn' (Operation.text.inj hrun), hrest⟩
  | button b' | spacer height' | divider thickness' color' | card c' children'
  | row paddingV' children' => simp [operationsOf] at h

theorem determined_button {b : Element.Button} (hn : b.action ∈ named ∧ b.label ∈ named) :
    Determined o number named parent (.button b) := by
  intro e' rest rest' hnamed' h
  cases e' with
  | button b' =>
    have haction' := mem_of_ownStrings hnamed' b'.action List.mem_cons_self
    have hlabel' := mem_of_ownStrings hnamed' b'.label (List.mem_cons_of_mem _ List.mem_cons_self)
    simp only [operationsOf, List.cons_append, List.nil_append, List.cons.injEq,
      Operation.boxStart.injEq, Operation.text.injEq, and_true, true_and] at h
    obtain ⟨hmodifiers, hrun, hrest⟩ := h
    exact ⟨button_withoutLengths_of_modifiers hinj hn ⟨haction', hlabel'⟩ hmodifiers hrun, hrest⟩
  | text t' | spacer height' | divider thickness' color' | card c' children'
  | row paddingV' children' => simp [operationsOf] at h

theorem determined_card {c : Element.Card} {children : List Element}
    (hn : ∀ t ∈ c.action, t ∈ named)
    (each : ∀ e ∈ children, Determined o number named .column e) :
    Determined o number named parent (.card c children) := by
  intro e' rest rest' hnamed' h
  cases e' with
  | card c' children' =>
    have hn' : ∀ t ∈ c'.action, t ∈ named := fun t ht =>
      mem_of_ownStrings hnamed' t (Option.mem_toList.mpr ht)
    simp only [operationsOf, List.cons_append, List.append_assoc, List.nil_append,
      List.cons.injEq, Operation.boxStart.injEq, Operation.columnStart.injEq, and_true,
      true_and] at h
    obtain ⟨hmodifiers, halign, h⟩ := h
    -- The first of the two ends is that of the column, so the children end where it stands.
    obtain ⟨hbelow, hrest⟩ := withoutLengthsAll_of_operationsOfAll o number named each
      (mem_of_stringsOfAll hnamed') h
    exact ⟨card_withoutLengths_of_modifiers hinj hn hn' hmodifiers halign hbelow,
      (List.cons.inj hrest).2⟩
  | text t' | button b' | spacer height' | divider thickness' color'
  | row paddingV' children' => simp [operationsOf] at h

end Elements

variable {parent : Parent}

theorem determined_spacer (height : Int32) : Determined o number named parent (.spacer height) := by
  intro e' rest rest' _ h
  cases e' with
  | spacer height' => exact ⟨rfl, (List.cons.inj (List.cons.inj h).2).2⟩
  | divider thickness' color' => simp [operationsOf, spacerModifiers, dividerModifiers] at h
  | text t' | button b' | card c' children' | row paddingV' children' => simp [operationsOf] at h

theorem determined_divider (thickness : Int32) (color : Color) :
    Determined o number named parent (.divider thickness color) := by
  intro e' rest rest' _ h
  cases e' with
  | divider thickness' color' =>
    simp only [operationsOf, dividerModifiers, List.cons_append, List.nil_append,
      List.cons.injEq, Operation.boxStart.injEq, Modifier.background.injEq, and_true,
      true_and] at h
    obtain ⟨⟨-, hcolor⟩, hrest⟩ := h
    exact ⟨congrArg (Element.divider 0) hcolor, hrest⟩
  | spacer height' => simp [operationsOf, spacerModifiers, dividerModifiers] at h
  | text t' | button b' | card c' children' | row paddingV' children' => simp [operationsOf] at h

theorem determined_row {paddingV : Int32} {children : List Element}
    (each : ∀ e ∈ children, Determined o number named .row e) :
    Determined o number named parent (.row paddingV children) := by
  intro e' rest rest' hnamed' h
  cases e' with
  | row paddingV' children' =>
    simp only [operationsOf, List.cons_append, List.append_assoc, List.nil_append,
      List.cons.injEq] at h
    obtain ⟨hbelow, hrest⟩ := withoutLengthsAll_of_operationsOfAll o number named each
      (mem_of_stringsOfAll hnamed') h.2
    exact ⟨congrArg (Element.row 0) hbelow, hrest⟩
  | text t' | button b' | spacer height' | divider thickness' color' | card c' children' =>
    simp [operationsOf] at h

/-- Inside a container, the operations of an element tell where they end and, as long as different
texts have different numbers, what the element is up to lengths. -/
theorem determined_of_injOn (hinj : Set.InjOn number named) (e : Element) (parent : Parent)
    (hnamed : ∀ t ∈ stringsOf e, t ∈ named) : Determined o number named parent e := by
  induction e using Element.inductionOn generalizing parent with
  | step e ih =>
    have hown := mem_of_ownStrings hnamed
    have each (p : Parent) (c : Element) (hc : c ∈ e.children) : Determined o number named p c :=
      ih c hc p fun t ht => mem_of_stringsOfAll hnamed t (mem_stringsOfAll.mpr ⟨c, hc, ht⟩)
    cases e with
    | text t => exact determined_text hinj (hown _ List.mem_cons_self)
    | button b =>
      exact determined_button hinj
        ⟨hown _ List.mem_cons_self, hown _ (List.mem_cons_of_mem _ List.mem_cons_self)⟩
    | spacer height => exact determined_spacer height
    | divider thickness color => exact determined_divider thickness color
    | card c children =>
      exact determined_card hinj (fun t ht => hown t (Option.mem_toList.mpr ht)) (each .column)
    | row paddingV children => exact determined_row (each .row)

/-! ### Screens -/

/-- Only a scrollable screen stacks its elements from the top. -/
theorem scrollable_of_verticalArrangement {s s' : Screen}
    (h : s.verticalArrangement = s'.verticalArrangement) : s.scrollable = s'.scrollable := by
  unfold Screen.verticalArrangement at h
  cases hs : s.scrollable <;> cases hs' : s'.scrollable <;> simp_all

/-- The operations of a screen tell what it is, but for lengths. -/
theorem withoutLengths_of_operationsOfScreen (hinj : Set.InjOn number named) {s s' : Screen}
    (hnamed : ∀ t ∈ stringsOfAll s.elements, t ∈ named)
    (hnamed' : ∀ t ∈ stringsOfAll s'.elements, t ∈ named)
    (h : operationsOfScreen o number s = operationsOfScreen o number s') :
    s.withoutLengths = s'.withoutLengths := by
  simp only [operationsOfScreen, List.cons.injEq, Operation.columnStart.injEq, true_and] at h
  obtain ⟨⟨hmodifiers, harrangement⟩, helements⟩ := h
  have hbackground := congrArg (List.filter Modifier.tells) hmodifiers
  rw [filter_rootModifiers, filter_rootModifiers] at hbackground
  have hscrollable := scrollable_of_verticalArrangement harrangement
  have each (e : Element) (he : e ∈ s.elements) : Determined o number named .column e :=
    determined_of_injOn hinj e .column fun t ht => hnamed t (mem_stringsOfAll.mpr ⟨e, he, ht⟩)
  obtain ⟨hbelow, -⟩ :=
    withoutLengthsAll_of_operationsOfAll o number named each hnamed' helements
  simp only [Screen.withoutLengths, Modifier.background.inj (List.cons.inj hbackground).1,
    hscrollable, hbelow]

end Operations

/-- Different texts of a screen have different numbers, as long as numbers do not run out. -/
theorem injOn_numberIn {d : Document} (hlength : d.texts.length ≤ 2 ^ 32) :
    Set.InjOn (numberIn d.texts) {t | t ∈ d.texts} :=
  fun _ ht _ ht' h => (numberIn_inj hlength ht ht').mp h

/-- **Documents lose nothing but lengths.** If the documents of two screens, written for the same
options, have the same bytes, then the screens are the same up to lengths: the background, whether
they scroll, the kinds of elements in order and nesting, and of each element everything else. -/
theorem withoutLengths_of_encode (o : Options) {s s' : Screen} {d d' : Document}
    (hdistinct : (s.texts ++ s.actions).dedup.length < 2 ^ 32 ∧
      (s'.texts ++ s'.actions).dedup.length < 2 ^ 32)
    (hmemory : s.Addressable ∧ s'.Addressable)
    (hbuild : build .empty o s = .ok d) (hbuild' : build .empty o s' = .ok d')
    (hbytes : d.encode = d'.encode) : s.withoutLengths = s'.withoutLengths := by
  rw [build_empty] at hbuild hbuild'
  obtain rfl := Except.ok.inj hbuild
  obtain rfl := Except.ok.inj hbuild'
  have fits : (ofScreen o s).FitsLengths :=
    fitsLengths_ofScreen hdistinct.1 hmemory.1.elements hmemory.1.texts
  have fits' : (ofScreen o s').FitsLengths :=
    fitsLengths_ofScreen hdistinct.2 hmemory.2.elements hmemory.2.texts
  -- Equal bytes are read back as one document, so both screens are numbered by one table.
  have hsame : ofScreen o s = ofScreen o s' := by
    have read := decode_encode fits []
    rw [hbytes, decode_encode fits' []] at read
    exact (Except.ok.inj read).symm
  have htexts : textsAfter [] s = textsAfter [] s' := congrArg texts hsame
  have hoperations : operationsOfScreen o (numberIn (textsAfter [] s)) s =
      operationsOfScreen o (numberIn (textsAfter [] s)) s' := by
    have h := congrArg operations hsame
    rw [ofScreen, ofScreen, ← htexts] at h
    exact h
  have hlength : (ofScreen o s).texts.length ≤ 2 ^ 32 :=
    Nat.le_of_lt (Writer.length_texts_extension_lt (w := .empty) List.nodup_nil hdistinct.1)
  have hinj : Set.InjOn (numberIn (textsAfter [] s)) {t | t ∈ textsAfter [] s} :=
    injOn_numberIn hlength
  refine withoutLengths_of_operationsOfScreen hinj (fun t ht => ?_) (fun t ht => ?_) hoperations
  · exact mem_texts_ofScreen (o := o).mpr ht
  · rw [htexts]
    exact mem_texts_ofScreen (o := o).mpr ht

/-- A card and a button in a row, where all lengths are the same. -/
def outlinedCard (length : Int32) : Screen where
  background := .black
  scrollable := false
  padding := length
  elements :=
    [.card ⟨length, ⟨0xFFFFFFFF⟩, ⟨length, 0⟩, some ⟨length, .black⟩, .center, some "open"⟩
      [.row length
        [.button ⟨"ok", "open", length, .black, ⟨0xFFFFFFFF⟩, length, ⟨length, length⟩, none⟩]]]

/-- The two lengths are rounded to the same number of pixels. -/
theorem withoutLengths_of_encode_rounded :
    ((outlinedCard 16777216).Addressable ∧ (outlinedCard 16777217).Addressable) ∧
      (∃ d d', build .empty {} (outlinedCard 16777216) = .ok d ∧
        build .empty {} (outlinedCard 16777217) = .ok d' ∧ d.encode = d'.encode) ∧
      outlinedCard 16777216 ≠ outlinedCard 16777217 ∧
      (outlinedCard 16777216).withoutLengths = (outlinedCard 16777217).withoutLengths := by
  have hdistinct : ((outlinedCard 16777216).texts ++
        (outlinedCard 16777216).actions).dedup.length < 2 ^ 32 ∧
      ((outlinedCard 16777217).texts ++
        (outlinedCard 16777217).actions).dedup.length < 2 ^ 32 := by decide +kernel
  have hmemory : (outlinedCard 16777216).Addressable ∧ (outlinedCard 16777217).Addressable :=
    ⟨⟨by decide +kernel, by decide +kernel⟩, ⟨by decide +kernel, by decide +kernel⟩⟩
  have hbuild := build_empty {} (outlinedCard 16777216)
  have hbuild' := build_empty {} (outlinedCard 16777217)
  have hbytes : (ofScreen {} (outlinedCard 16777216)).encode =
      (ofScreen {} (outlinedCard 16777217)).encode := by decide +kernel
  refine ⟨hmemory, ⟨_, _, hbuild, hbuild', hbytes⟩, fun h => ?_,
    withoutLengths_of_encode {} hdistinct hmemory hbuild hbuild' hbytes⟩
  exact absurd (congrArg Screen.padding h) (by decide)

end Document

end LayoutCompiler
