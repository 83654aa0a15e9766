import LayoutCompiler.Json.Record
import LayoutCompiler.Proofs.Json.Tokens

/-
Printed values are read back. A reader that is given a printed value reads it, whatever
comes behind it, or stops where more would be open at once than may be (`ReadsBack`).
What holds of the items of a list and of the fields of a record holds of the list and of
the record (`readsBack_list`, `readsBack_record`).
-/

namespace LayoutCompiler.Json

/-- The result of reading a printed value: the value if it fits, and otherwise a failure because too
much is open. -/
def Gives {α : Type} (fits : Prop) (a : α) (result : Except Failure α) : Prop :=
  (fits ∧ result = .ok a) ∨ ¬ fits ∧ ∃ f, result = .error f ∧ f.cause = .nestingLimit

theorem Gives.map {α β : Type} {fits : Prop} {a : α} {result : Except Failure α}
    (h : Gives fits a result) (f : α → β) : Gives fits (f a) (result.map f) := by
  rcases h with ⟨hfits, rfl⟩ | ⟨hlimit, e, rfl, hcause⟩
  · exact .inl ⟨hfits, rfl⟩
  · exact .inr ⟨hlimit, e, rfl, hcause⟩

/-- A printed value is read back if it fits, whatever comes behind it. -/
def ReadsBack {α : Type} (reader : Reader α) (printed : List Char) (fits : Prop) (a : α) : Prop :=
  ∀ rest, Ended rest → Gives fits (a, rest) (reader.run (printed ++ rest))

/-! ### White space -/

theorem skipSpace_cons {c : Char} (h : isSpace c = false) (s : List Char) :
    skipSpace (c :: s) = c :: s :=
  List.dropWhile_cons_of_neg (by simp [h])

theorem isSpace_of_number {c : Char} (h : c = '-' ∨ Number.isDigit c) : isSpace c = false := by
  rcases h with rfl | h
  · rfl
  · cases hspace : isSpace c with
    | false => rfl
    | true =>
      simp only [isSpace, Bool.or_eq_true, beq_iff_eq] at hspace
      rcases hspace with ((rfl | rfl) | rfl) | rfl <;> exact absurd h (by decide)

/-! ### Scalars -/

theorem readsBack_text (s : String) : ReadsBack .text (printText s) True s := by
  intro rest _
  refine .inl ⟨trivial, ?_⟩
  have hscan := scanText_printed [] s.toList rest
  rw [List.reverse_nil, List.nil_append, String.ofList_toList] at hscan
  simp only [printText, List.cons_append, List.append_assoc, List.nil_append, Reader.text,
    skipSpace_cons (show isSpace '"' = false from rfl), hscan]

theorem readsBack_int32 (i : Int32) : ReadsBack .int32 (printInt i.toInt) True i := by
  intro rest hrest
  refine .inl ⟨trivial, ?_⟩
  have hlow := i.le_toInt
  have hhigh := i.toInt_lt
  have hword : -0x8000000000000000 ≤ i.toInt ∧ i.toInt ≤ maxWord := by
    unfold maxWord
    omega
  have hsigned : -0x80000000 ≤ i.toInt ∧ i.toInt ≤ 0x7FFFFFFF := by omega
  have hread := numeral_printInt hword hrest
  obtain ⟨c, cs, hcs, hc⟩ := printInt_eq_cons i.toInt
  rw [hcs, List.cons_append] at hread ⊢
  simp only [Reader.int32, Reader.map, Reader.integer, skipSpace_cons (isSpace_of_number hc), hc,
    if_true, hread, hsigned]
  simp [Except.map, Int32.ofInt_toInt]

theorem readsBack_boolean (b : Bool) : ReadsBack .boolean (printBool b) True b := by
  intro rest _
  cases b <;> exact .inl ⟨trivial, rfl⟩

theorem readsBack_variant {α : Type} {room : Bool} {choose : String → Except Cause α}
    {name : String} {a : α} (h : choose name = .ok a) :
    ReadsBack (.variant room choose) (printText name) True a := by
  intro rest hrest
  refine .inl ⟨trivial, ?_⟩
  obtain ⟨-, hname⟩ | ⟨hfalse, -⟩ := readsBack_text name rest hrest
  · simp only [printText, List.cons_append] at hname ⊢
    simp only [Reader.variant, skipSpace_cons (show isSpace '"' = false from rfl),
      Reader.variantName, hname, h]
  · exact absurd trivial hfalse

/-! ### What values begin with -/

/-- The first character of a printed value that is neither `null` nor the end of a list. -/
def Begins (printed : List Char) : Prop :=
  ∃ c cs, printed = c :: cs ∧ isSpace c = false ∧ c ≠ 'n' ∧ c ≠ ']'

theorem begins_printText (s : String) : Begins (printText s) :=
  ⟨'"', _, rfl, rfl, by decide, by decide⟩

theorem begins_printInt (i : Int) : Begins (printInt i) := by
  obtain ⟨c, cs, hcs, hc⟩ := printInt_eq_cons i
  refine ⟨c, cs, hcs, isSpace_of_number hc, ?_, ?_⟩ <;> rintro rfl <;> exact absurd hc (by decide)

theorem begins_printList (items : List (List Char)) : Begins (printList items) :=
  ⟨'[', _, rfl, rfl, by decide, by decide⟩

theorem begins_printObject (members : List (String × List Char)) : Begins (printObject members) :=
  ⟨'\x7b', _, rfl, rfl, by decide, by decide⟩

theorem ReadsBack.optional {α : Type} {reader : Reader α} {printed : List Char} {fits : Prop}
    {a : α} (h : ReadsBack reader printed fits a) (hbegins : Begins printed) :
    ReadsBack reader.optional printed fits (some a) := by
  intro rest hrest
  have hread := (h rest hrest).map fun p => (some p.1, p.2)
  obtain ⟨c, cs, rfl, hspace, hnull, -⟩ := hbegins
  have hrun : reader.optional.run (c :: cs ++ rest) =
      (reader.run (c :: cs ++ rest)).map fun p => (some p.1, p.2) := by
    simp only [Reader.optional, List.cons_append, skipSpace_cons hspace]
    split
    · next hcons => exact absurd (List.cons.inj hcons).1 hnull
    · rfl
  rw [hrun]
  exact hread

/-! ### Items -/

/-- Printed items as they stand in an open list or object, where all but the first one of it are
behind a comma. -/
def joined (first : Bool) : List (List Char) → List Char
  | [] => []
  | x :: xs => (if first then x else ',' :: x) ++ joined false xs

theorem separated_eq_joined (items : List (List Char)) : separated items = joined true items := by
  have htail (x : List Char) (xs : List (List Char)) :
      separated (x :: xs) = x ++ joined false xs := by
    induction xs generalizing x with
    | nil => simp [separated, joined]
    | cons y ys ih =>
      have hrest := ih y
      unfold separated at hrest ⊢
      rw [List.intercalate_cons_cons, hrest, joined, List.append_assoc]
      rfl
  cases items with
  | nil => rfl
  | cons x xs => exact htail x xs

/-- Behind an item comes a comma or the end of the container. -/
theorem ended_joined {c : Char} (hc : c = ']' ∨ c = '\x7d') (items : List (List Char))
    (rest : List Char) : Ended (joined false items ++ c :: rest) := by
  intro d hd
  cases items with
  | nil =>
    cases hd
    exact .inr hc
  | cons x xs =>
    cases hd
    exact .inl rfl

/-! ### Lists -/

theorem nextItem_joined {x : List Char} (h : Begins x) (first : Bool) (xs : List (List Char))
    (rest : List Char) :
    nextItem first (joined first (x :: xs) ++ rest) =
      .ok (true, x ++ (joined false xs ++ rest)) := by
  obtain ⟨c, cs, rfl, hspace, -, hend⟩ := h
  cases first with
  | true =>
    simp [joined, nextItem, skipSpace_cons hspace]
  | false =>
    have hcomma : isSpace ',' = false := rfl
    simp [joined, nextItem, skipSpace_cons hspace, skipSpace_cons hcomma, hend]

/-- One step of reading items. -/
theorem items_eq {α : Type} (item : Reader α) (acc : List α) (first : Bool) (s : List Char) :
    items item acc first s =
      match nextItem first s with
      | .error e => .error e
      | .ok (false, r) => .ok (acc.reverse, r)
      | .ok (true, r) =>
        match item.run r with
        | .error e => .error e
        | .ok (a, t) => items item (a :: acc) false t := by
  rw [items]
  split
  · next hnext => simp only [hnext]
  · next hnext => simp only [hnext]
  · next hnext =>
    simp only [hnext]
    split
    · next hread => simp only [hread]
    · next hread => simp only [hread]

/-- What holds of each item holds of all of them. -/
theorem gives_items {α : Type} {item : Reader α} {print : α → List Char} {fits : α → Prop}
    {as : List α} (h : ∀ a ∈ as, ReadsBack item (print a) (fits a) a ∧ Begins (print a))
    (acc : List α) (first : Bool) (rest : List Char) :
    Gives (∀ a ∈ as, fits a) (acc.reverse ++ as, rest)
      (items item acc first (joined first (as.map print) ++ ']' :: rest)) := by
  induction as generalizing acc first with
  | nil =>
    refine .inl ⟨by simp, ?_⟩
    rw [List.append_nil, items_eq]
    rfl
  | cons a as ih =>
    obtain ⟨hread, hbegins⟩ := h a List.mem_cons_self
    have hnext := nextItem_joined hbegins first (as.map print) (']' :: rest)
    rcases hread _ (ended_joined (.inl rfl) (as.map print) rest) with
      ⟨hfits, hrun⟩ | ⟨hlimit, f, hrun, hcause⟩
    · have hrest := ih (fun b hb => h b (List.mem_cons_of_mem a hb)) (a :: acc) false
      rw [List.reverse_cons, List.append_assoc] at hrest
      simp only [List.map_cons, items_eq item acc, hnext, hrun, List.forall_mem_cons]
      simpa [hfits] using hrest
    · simp only [List.map_cons, items_eq item acc, hnext, hrun, List.forall_mem_cons]
      exact .inr ⟨fun hall => hlimit hall.1, f, rfl, hcause⟩

/-- A list is read back if one may be opened and its items are read back. -/
theorem readsBack_list {α : Type} {item : Reader α} {print : α → List Char} {fits : α → Prop}
    {as : List α} (h : ∀ a ∈ as, ReadsBack item (print a) (fits a) a ∧ Begins (print a)) :
    ReadsBack (.list (some item)) (printList (as.map print)) (∀ a ∈ as, fits a) as := by
  intro rest _
  have hitems := gives_items h [] true rest
  simpa [Reader.list, printList, separated_eq_joined,
    skipSpace_cons (show isSpace '[' = false from rfl)] using hitems

/-- No list is read where none may be opened. -/
theorem readsBack_list_none {α : Type} (printed : List (List Char)) (as : List α) :
    ReadsBack (.list none) (printList printed) False as := by
  intro rest _
  exact .inr ⟨id, _, rfl, rfl⟩

/-! ### Records -/

/-- A printed member of an object. -/
def printMember (member : String × List Char) : List Char :=
  printText member.1 ++ ':' :: member.2

theorem printObject_eq_joined (members : List (String × List Char)) :
    printObject members = '\x7b' :: joined true (members.map printMember) ++ ['\x7d'] := by
  rw [printObject, separated_eq_joined]
  rfl

theorem nextKey_joined (name : String) (value : List Char) (first : Bool)
    (members : List (List Char)) (rest : List Char) :
    nextKey first (joined first (printMember (name, value) :: members) ++ rest) =
      .ok (some name, ':' :: (value ++ (joined false members ++ rest))) := by
  have hquote : isSpace '"' = false := rfl
  have hcomma : isSpace ',' = false := rfl
  have hscan (rest : List Char) := scanText_printed [] name.toList rest
  simp only [List.reverse_nil, List.nil_append, String.ofList_toList] at hscan
  cases first <;>
    simp [joined, printMember, printText, nextKey, nextKey.key, skipSpace_cons hquote,
      skipSpace_cons hcomma, hscan, Except.map]

/-- What is printed for a field is read back; nothing is printed for a field that is not there. -/
inductive FieldBack {α : Type} (reader : Reader α) (fits : Prop) :
    Option (List Char) → Option α → Prop
  | absent (h : fits) : FieldBack reader fits none none
  | present {printed : List Char} {a : α} (h : ReadsBack reader printed fits a) :
    FieldBack reader fits (some printed) (some a)

/-- A field that may be `null` is printed only if it is not. -/
theorem fieldBack_optional {α : Type} {reader : Reader α} {print : α → List Char} {fits : α → Prop}
    (h : ∀ a, ReadsBack reader (print a) (fits a) a ∧ Begins (print a)) (value : Option α) :
    FieldBack reader.optional (∀ a ∈ value, fits a) (value.map print) (value.map some) := by
  cases value with
  | none => exact .absent (by simp)
  | some a =>
    have hread := (h a).1.optional (h a).2
    simpa using FieldBack.present hread

/-- A field that opens nothing fits. -/
theorem fieldBack_scalar {α : Type} {reader : Reader α} {print : α → List Char}
    (h : ∀ a, ReadsBack reader (print a) True a) (hbegins : ∀ a, Begins (print a))
    (value : Option α) :
    FieldBack reader.optional True (value.map print) (value.map some) := by
  simpa using fieldBack_optional (fun a => ⟨h a, hbegins a⟩) value

/-- The printed members of an object with the given fields. -/
def printedMembers {φ : Type} (name : φ → String) (printed : φ → Option (List Char))
    (fields : List φ) : List (String × List Char) :=
  fields.flatMap fun f => ((printed f).map fun value => (name f, value)).toList

theorem printedMembers_absent {φ : Type} (name : φ → String) {printed : φ → Option (List Char)}
    {f : φ} (h : printed f = none) (fields : List φ) :
    printedMembers name printed (f :: fields) = printedMembers name printed fields := by
  simp [printedMembers, h]

theorem printedMembers_present {φ : Type} (name : φ → String) {printed : φ → Option (List Char)}
    {f : φ} {value : List Char} (h : printed f = some value) (fields : List φ) :
    printedMembers name printed (f :: fields) =
      (name f, value) :: printedMembers name printed fields := by
  simp [printedMembers, h]

theorem mem_printedMembers {φ : Type} {name : φ → String} {printed : φ → Option (List Char)}
    {fields : List φ} {member : String × List Char} :
    member ∈ printedMembers name printed fields ↔
      ∃ f ∈ fields, ∃ value ∈ printed f, (name f, value) = member := by
  simp [printedMembers]

namespace Schema

variable {φ : Type} {β : φ → Type} [DecidableEq φ] {S : Schema φ β}

/-- One step of reading members. -/
theorem members_eq (S : Schema φ β) (first : Bool) (d : Draft β) (s : List Char) :
    S.members first d s =
      match nextKey first s with
      | .error e => .error e
      | .ok (none, r) => .ok (d, r)
      | .ok (some key, r) =>
        match S.member d key r with
        | .error e => .error e
        | .ok (d', t) => S.members false d' t := by
  rw [members]
  split
  · next hnext => simp only [hnext]
  · next hnext => simp only [hnext]
  · next hnext =>
    simp only [hnext]
    split
    · next hread => simp only [hread]
    · next hread => simp only [hread]

theorem member_eq {d : Draft β} {f : φ} (hname : S.field? (S.name f) = some f) (hd : d f = none)
    (s : List Char) :
    S.member d (S.name f) (':' :: s) = ((S.value f).run s).map fun p => (d.set f p.1, p.2) := by
  rw [member, hname]
  simp only [hd]
  rfl

section Before

variable {D d : Draft β} {f : φ} {fields : List φ}

/-- The draft `d` has what the draft `D` has, but for the given fields, which are still to come. -/
def Before (D : Draft β) (fields : List φ) (d : Draft β) : Prop :=
  ∀ f, d f = if f ∈ fields then none else D f

theorem before_empty (h : ∀ f, f ∈ fields) : Before D fields .empty := by
  intro f
  rw [if_pos (h f), Draft.empty]

theorem Before.eq (h : Before D [] d) : d = D :=
  funext fun f => (h f).trans (if_neg List.not_mem_nil)

theorem Before.eq_none (h : Before D (f :: fields) d) : d f = none :=
  (h f).trans (if_pos List.mem_cons_self)

theorem Before.absent (h : Before D (f :: fields) d) (hD : D f = none) : Before D fields d := by
  intro g
  by_cases hg : g = f
  · subst hg
    rw [h.eq_none, hD, ite_self]
  · simpa [hg] using h g

theorem Before.set (h : Before D (f :: fields) d) (hf : f ∉ fields) {b : β f}
    (hD : D f = some b) : Before D fields (d.set f b) := by
  intro g
  by_cases hg : f = g
  · subst hg
    simp [Draft.set, hf, hD]
  · simpa [Draft.set, hg, Ne.symm hg] using h g

end Before

variable {printed : φ → Option (List Char)} {D d : Draft β} {fits : φ → Prop}

/-- The value of one printed member is read back, or is the failure of the object. -/
theorem members_joined {f : φ} {value : List Char} {fit : Prop} {b : β f}
    (hname : S.field? (S.name f) = some f) (hread : ReadsBack (S.value f) value fit b)
    (hd : d f = none) (first : Bool) (items : List (List Char)) (rest : List Char) :
    (fit ∧ S.members first d
        (joined first (printMember (S.name f, value) :: items) ++ '\x7d' :: rest) =
      S.members false (d.set f b) (joined false items ++ '\x7d' :: rest)) ∨
    (¬ fit ∧ ∃ e, S.members first d
        (joined first (printMember (S.name f, value) :: items) ++ '\x7d' :: rest) = .error e ∧
      e.cause = .nestingLimit) := by
  have hnext := nextKey_joined (S.name f) value first items ('\x7d' :: rest)
  have hmember := member_eq hname hd
  rw [members_eq]
  rcases hread _ (ended_joined (.inr rfl) items rest) with
    ⟨hfit, hrun⟩ | ⟨hlimit, e, hrun, hcause⟩
  · simp only [hnext, hmember, hrun, Except.map]
    exact .inl ⟨hfit, trivial⟩
  · simp only [hnext, hmember, hrun, Except.map]
    exact .inr ⟨hlimit, e, rfl, hcause⟩

/-- What holds of each field holds of all of them. -/
theorem gives_members {fields : List φ} (hnodup : fields.Nodup)
    (hnames : ∀ f ∈ fields, S.field? (S.name f) = some f)
    (hback : ∀ f ∈ fields, FieldBack (S.value f) (fits f) (printed f) (D f))
    (hd : Before D fields d) (first : Bool) (rest : List Char) :
    Gives (∀ f ∈ fields, fits f) (D, rest)
      (S.members first d
        (joined first ((printedMembers S.name printed fields).map printMember) ++
          '\x7d' :: rest)) := by
  -- The induction is on the fields still to come; the draft holds those before them.
  induction fields generalizing d first with
  | nil =>
    obtain rfl := hd.eq
    refine .inl ⟨by simp, ?_⟩
    rw [members_eq]
    rfl
  | cons f fields ih =>
    obtain ⟨hf, hnodup⟩ := List.nodup_cons.mp hnodup
    have hbelow {d : Draft β} (hd : Before D fields d) (first : Bool) :=
      ih hnodup (fun g hg => hnames g (List.mem_cons_of_mem f hg))
        (fun g hg => hback g (List.mem_cons_of_mem f hg)) hd first
    have hfield := hback f List.mem_cons_self
    rw [List.forall_mem_cons]
    generalize hprinted : printed f = value at hfield
    generalize hD : D f = b at hfield
    cases hfield with
    | absent hfits =>
      have hrest := hbelow (hd.absent hD) first
      rw [printedMembers_absent S.name hprinted]
      simpa [hfits] using hrest
    | present hread =>
      rw [printedMembers_present S.name hprinted, List.map_cons]
      rcases members_joined (hnames f List.mem_cons_self) hread hd.eq_none first
          ((printedMembers S.name printed fields).map printMember) rest with
        ⟨hfits, hrun⟩ | ⟨hlimit, e, hrun, hcause⟩
      · have hrest := hbelow (hd.set hf hD) false
        rw [hrun]
        simpa [hfits] using hrest
      · exact .inr ⟨fun hall => hlimit hall.1, e, hrun, hcause⟩

/-- A record is read back if it may be opened and its fields are read back. -/
theorem readsBack_record {α : Type} (title : String) {build : Draft β → Except φ α} {a : α}
    (hall : ∀ f, f ∈ S.fields) (hnodup : S.fields.Nodup)
    (hnames : ∀ f, S.field? (S.name f) = some f)
    (hback : ∀ f, FieldBack (S.value f) (fits f) (printed f) (D f)) (hbuild : build D = .ok a) :
    ReadsBack (record title (some S) build) (printObject (printedMembers S.name printed S.fields))
      (∀ f, fits f) a := by
  intro rest _
  have hmembers := gives_members hnodup (fun f _ => hnames f) (fun f _ => hback f)
    (before_empty hall) true rest
  have hbrace : isSpace '\x7b' = false := rfl
  simp only [printObject_eq_joined, List.cons_append, List.append_assoc, List.nil_append, record,
    skipSpace_cons hbrace]
  simp only [hall, true_implies] at hmembers
  rcases hmembers with ⟨hfits, hrun⟩ | ⟨hlimit, e, hrun, hcause⟩
  · simp only [hrun, hbuild]
    exact .inl ⟨hfits, rfl⟩
  · simp only [hrun]
    exact .inr ⟨hlimit, e, rfl, hcause⟩

/-- No record is read where none may be opened. -/
theorem readsBack_record_none {α : Type} {title : String} {build : Draft β → Except φ α}
    (members : List (String × List Char)) (a : α) :
    ReadsBack (record title none build) (printObject members) False a := by
  intro rest _
  exact .inr ⟨id, _, rfl, rfl⟩

end Schema

/-- A whole text that is a printed value is read back. -/
theorem ReadsBack.readAll {α : Type} {reader : Reader α} {text : String} {fits : Prop} {a : α}
    (h : ReadsBack reader text.toList fits a) :
    (fits → reader.readAll text = .ok a) ∧
      (¬ fits → ∃ e, reader.readAll text = .error e ∧ e.cause = .nestingLimit) := by
  have hread := h [] (by simp [Ended])
  rw [List.append_nil] at hread
  rcases hread with ⟨hfits, hrun⟩ | ⟨hlimit, f, hrun, hcause⟩
  · simp [Reader.readAll, hrun, skipSpace, hfits]
  · simp [Reader.readAll, hrun, hlimit, Failure.locate, hcause]

end LayoutCompiler.Json
