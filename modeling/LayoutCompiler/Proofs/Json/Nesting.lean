import LayoutCompiler.Proofs.Json.ReadBack

/-
How many lists and objects of a JSON text are open at once. This is counted on the
characters of the text, where brackets inside of texts do not count (`nesting`). Behind
a printed value as many are open as before it, and in between as many more as the value
is high (`Spans`).
-/

namespace LayoutCompiler.Json

/-- The place of a character in a JSON text. -/
inductive Place where
  | between
  | inText
  /-- Inside of a text behind a backslash. -/
  | behindBackslash
  deriving DecidableEq, Repr

namespace Place

/-- The place behind a character. -/
def next : Place → Char → Place
  | between, c => if c = '"' then inText else between
  | inText, c => if c = '"' then between else if c = '\\' then behindBackslash else inText
  | behindBackslash, _ => inText

/-- The number of lists and objects open behind a character, where `opened` are open before it. -/
def openedAfter (opened : Nat) : Place → Char → Nat
  | between, c =>
    if c = '[' ∨ c = '\x7b' then opened + 1 else if c = ']' ∨ c = '\x7d' then opened - 1 else opened
  | inText, _ | behindBackslash, _ => opened

end Place

/-- The largest number of lists and objects open at once, where `opened` are open at first. -/
def nestingFrom (opened : Nat) : Place → List Char → Nat
  | _, [] => opened
  | place, c :: s => max opened (nestingFrom (place.openedAfter opened c) (place.next c) s)

/-- The largest number of lists and objects of a JSON text that are open at once. -/
def nesting (text : String) : Nat :=
  nestingFrom 0 .between text.toList

theorem le_nestingFrom (opened : Nat) (place : Place) (s : List Char) :
    opened ≤ nestingFrom opened place s := by
  cases s with
  | nil => exact Nat.le_refl opened
  | cons c s => exact Nat.le_max_left _ _

/-- Behind `printed` as many lists and objects are open as before it, and in between up to `height`
more. -/
def Spans (printed : List Char) (height : Nat) : Prop :=
  ∀ opened rest, nestingFrom opened .between (printed ++ rest) =
    max (opened + height) (nestingFrom opened .between rest)

theorem spans_nil : Spans [] 0 := by
  intro opened rest
  have hle := le_nestingFrom opened .between rest
  simp [hle]

theorem Spans.append {s t : List Char} {height height' : Nat} (h : Spans s height)
    (h' : Spans t height') : Spans (s ++ t) (max height height') := by
  intro opened rest
  rw [List.append_assoc, h, h']
  omega

/-! ### Scalars -/

theorem spans_cons {c : Char} {s : List Char} {height : Nat}
    (hc : c ∉ ['"', '[', ']', '\x7b', '\x7d']) (h : Spans s height) : Spans (c :: s) height := by
  intro opened rest
  have hstep := h opened rest
  simp only [List.mem_cons, List.not_mem_nil, or_false, not_or] at hc
  simp only [List.cons_append, nestingFrom, Place.openedAfter, Place.next, hc, or_self, if_false,
    hstep]
  omega

theorem spans_of_forall {s : List Char} (h : ∀ c ∈ s, c ∉ ['"', '[', ']', '\x7b', '\x7d']) :
    Spans s 0 := by
  induction s with
  | nil => exact spans_nil
  | cons c s ih =>
    exact spans_cons (h c List.mem_cons_self) (ih fun d hd => h d (List.mem_cons_of_mem c hd))

theorem nestingFrom_inText {cs : List Char} (h : ∀ c ∈ cs, c ≠ '"' ∧ c ≠ '\\') (opened : Nat)
    (s : List Char) : nestingFrom opened .inText (cs ++ s) = nestingFrom opened .inText s := by
  have hle := le_nestingFrom opened .inText s
  induction cs with
  | nil => rfl
  | cons c cs ih =>
    obtain ⟨hquote, hslash⟩ := h c List.mem_cons_self
    have hrest := ih fun d hd => h d (List.mem_cons_of_mem c hd)
    simp [nestingFrom, Place.openedAfter, Place.next, hquote, hslash, hrest, hle]

theorem ne_of_mem_hexPadded {w n : Nat} {c : Char} (h : c ∈ Text.hexPadded w n) :
    c ≠ '"' ∧ c ≠ '\\' := by
  have hdigits : ∀ d < 16, Text.hexDigit d ≠ '"' ∧ Text.hexDigit d ≠ '\\' := by decide
  obtain ⟨d, hd, rfl⟩ := Text.exists_of_mem_hexPadded h
  exact hdigits d hd

/-- A printed character stays inside of its text. -/
theorem nestingFrom_escaped (opened : Nat) (c : Char) (s : List Char) :
    nestingFrom opened .inText (escaped c ++ s) = nestingFrom opened .inText s := by
  have hle := le_nestingFrom opened .inText s
  unfold escaped
  split
  case h_8 hquote hslash _ _ _ _ _ =>
    split
    case isTrue hcontrol =>
      have hdigits := nestingFrom_inText (fun _ => ne_of_mem_hexPadded (w := 4) (n := c.toNat))
        opened s
      simp [nestingFrom, Place.openedAfter, Place.next, hdigits, hle]
    case isFalse hcontrol =>
      refine nestingFrom_inText (fun d hd => ?_) opened s
      obtain rfl := List.mem_singleton.mp hd
      exact ⟨hquote, hslash⟩
  all_goals simp [nestingFrom, Place.openedAfter, Place.next, hle]

theorem spans_printText (s : String) : Spans (printText s) 0 := by
  intro opened rest
  have hle := le_nestingFrom opened .between rest
  have hinside (cs : List Char) :
      nestingFrom opened .inText (cs.flatMap escaped ++ '"' :: rest) =
        nestingFrom opened .between rest := by
    induction cs with
    | nil => simp [nestingFrom, Place.openedAfter, Place.next, hle]
    | cons c cs ih => rw [List.flatMap_cons, List.append_assoc, nestingFrom_escaped, ih]
  simp [printText, nestingFrom, Place.openedAfter, Place.next, hinside, hle]

theorem spans_printInt (i : Int) : Spans (printInt i) 0 := by
  have hdigits {n : Nat} {c : Char} (h : c ∈ Nat.toDigits 10 n) :
      c ∉ ['"', '[', ']', '\x7b', '\x7d'] := by
    have hdigit := isDigit_of_mem_toDigits h
    intro hc
    simp only [List.mem_cons, List.not_mem_nil, or_false] at hc
    rcases hc with rfl | rfl | rfl | rfl | rfl <;> exact absurd hdigit (by decide)
  cases i with
  | ofNat n =>
    rw [printInt_ofNat]
    exact spans_of_forall fun _ => hdigits
  | negSucc n =>
    rw [printInt_negSucc]
    exact spans_cons (by decide) (spans_of_forall fun _ => hdigits)

theorem spans_printBool (b : Bool) : Spans (printBool b) 0 := by
  cases b <;> exact spans_of_forall (by simp [printBool])

/-! ### Containers -/

theorem spans_member {name : String} {value : List Char} {height : Nat} (h : Spans value height) :
    Spans (printMember (name, value)) height := by
  have hmember := (spans_printText name).append (spans_cons (c := ':') (by decide) h)
  rwa [Nat.zero_max] at hmember

/-- Between the brackets of a list or an object, up to `height` more are open. -/
def SpansAll (items : List (List Char)) (height : Nat) : Prop :=
  ∀ first, Spans (joined first items) height

theorem spansAll_nil : SpansAll [] 0 :=
  fun _ => spans_nil

theorem SpansAll.cons {x : List Char} {xs : List (List Char)} {height height' : Nat}
    (h : Spans x height) (h' : SpansAll xs height') : SpansAll (x :: xs) (max height height') := by
  intro first
  cases first with
  | true => exact h.append (h' false)
  | false => exact (spans_cons (by decide) h).append (h' false)

theorem joined_append (first : Bool) (xs ys : List (List Char)) :
    joined first (xs ++ ys) = joined first xs ++ joined (first && xs.isEmpty) ys := by
  induction xs generalizing first with
  | nil => simp [joined]
  | cons x xs ih => simp [joined, ih]

theorem spansAll_singleton {x : List Char} {height : Nat} (h : Spans x height) :
    SpansAll [x] height := by
  have hcons := SpansAll.cons h spansAll_nil
  rwa [Nat.max_zero] at hcons

theorem SpansAll.append {xs ys : List (List Char)} {height height' : Nat}
    (h : SpansAll xs height) (h' : SpansAll ys height') :
    SpansAll (xs ++ ys) (max height height') := by
  intro first
  rw [joined_append]
  exact (h first).append (h' _)

theorem spansAll_of_forall {xs : List (List Char)} (h : ∀ x ∈ xs, Spans x 0) : SpansAll xs 0 := by
  induction xs with
  | nil => exact spansAll_nil
  | cons x xs ih =>
    have hrest := ih fun y hy => h y (List.mem_cons_of_mem x hy)
    exact SpansAll.cons (h x List.mem_cons_self) hrest

theorem Spans.enclosed {s : List Char} {height : Nat} (h : Spans s height) {opening closing : Char}
    (ho : opening = '[' ∨ opening = '\x7b') (hc : closing = ']' ∨ closing = '\x7d') :
    Spans (opening :: s ++ [closing]) (height + 1) := by
  intro opened rest
  have hinside := h (opened + 1) (closing :: rest)
  have hle := le_nestingFrom opened .between rest
  have hstart : Place.openedAfter opened .between opening = opened + 1 ∧
      Place.next .between opening = .between := by
    rcases ho with rfl | rfl <;> exact ⟨rfl, rfl⟩
  have hend : Place.openedAfter (opened + 1) .between closing = opened ∧
      Place.next .between closing = .between := by
    rcases hc with rfl | rfl <;> exact ⟨rfl, rfl⟩
  simp only [List.cons_append, List.append_assoc, List.nil_append, nestingFrom, hstart, hinside,
    hend]
  omega

theorem spans_printList {items : List (List Char)} {height : Nat} (h : SpansAll items height) :
    Spans (printList items) (height + 1) := by
  rw [printList, separated_eq_joined]
  exact (h true).enclosed (.inl rfl) (.inl rfl)

theorem spans_printObject {members : List (String × List Char)} {height : Nat}
    (h : SpansAll (members.map printMember) height) : Spans (printObject members) (height + 1) := by
  rw [printObject_eq_joined]
  exact (h true).enclosed (.inr rfl) (.inr rfl)

/-- Fields that open nothing. -/
theorem spansAll_printedMembers {φ : Type} (name : φ → String) {printed : φ → Option (List Char)}
    {fields : List φ} (h : ∀ f ∈ fields, ∀ value ∈ printed f, Spans value 0) :
    SpansAll ((printedMembers name printed fields).map printMember) 0 := by
  refine spansAll_of_forall fun x hx => ?_
  obtain ⟨member, hmember, rfl⟩ := List.mem_map.mp hx
  obtain ⟨f, hf, value, hvalue, rfl⟩ := mem_printedMembers.mp hmember
  exact spans_member (h f hf value hvalue)

/-- In a text that is a printed value, as many lists and objects are open at once as it is high. -/
theorem Spans.nesting_eq {text : String} {height : Nat} (h : Spans text.toList height) :
    nesting text = height := by
  have hall := h 0 []
  rw [List.append_nil] at hall
  rw [nesting, hall]
  simp [nestingFrom]

/-- Brackets inside of texts do not count. -/
example : nesting "[[\"[\\\"[\"],[]]" = 2 := by decide

end LayoutCompiler.Json
