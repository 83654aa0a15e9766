import LayoutCompiler.Json.Record
import LayoutCompiler.Proofs.Json.Spelled

/-
What a reader makes of a value is settled by the value alone: the white space between its
tokens does not matter, nor does what comes behind it (`Settles`). Each reader comes with the
reading of a value that it settles on (`Value.text?` and so on).
-/

namespace LayoutCompiler.Json

variable {α β : Type}

/-! ### Scalars -/

/-- The reader yields what is to be made of the value, however the value is spaced and whatever
comes behind it. -/
def Settles (reader : Reader α) (v : Value) (o : Option α) : Prop :=
  ∀ ⦃ts : List (List Char)⦄ ⦃s : List Char⦄, Follows ts → Spaced (v.tokens ++ ts) s →
    Yields (Spaced ts) o (reader.run s)

namespace Value

def text? : Value → Option String
  | .text letters => (Letter.unescape letters).map String.ofList
  | _ => none

def boolean? : Value → Option Bool
  | .boolean b => some b
  | _ => none

/-- The integer between `low` and `high` that a value is. -/
def integer? (low high : Int) : Value → Option Int
  | .number n => n.integer?.bind fun i => if low ≤ i ∧ i ≤ high then some i else none
  | _ => none

/-- A signed word of 32 bits. -/
def int32? (v : Value) : Option Int32 :=
  (v.integer? (-0x80000000) 0x7FFFFFFF).map Int32.ofInt

/-- Nothing for `null`. -/
def optional? (M : Value → Option α) : Value → Option (Option α)
  | .null => some none
  | v => (M v).map some

end Value

theorem Settles.map {reader : Reader α} {v : Value} {o : Option α} (h : Settles reader v o)
    (f : α → β) : Settles (reader.map f) v (o.map f) :=
  fun _ _ hts hs => (h hts hs).map f

theorem yields_text {letters : List Letter} {ts : List (List Char)} {s : List Char}
    (h : Spaced (quoted letters :: ts) s) :
    Yields (Spaced ts) ((Letter.unescape letters).map String.ofList) (Reader.text.run s) := by
  obtain ⟨r, hr, hts⟩ := h.next rfl
  have hscan := scanText_letters [] letters r
  simp only [Reader.text, hr, List.append_assoc]
  exact hscan.mono fun r' hr' => hr' ▸ hts

theorem settles_text (v : Value) : Settles .text v v.text? := by
  intro ts s _ hs
  obtain ⟨c, r, hr, hc, -⟩ := hs.value
  cases hc with
  | text => exact yields_text hs
  | number hc =>
    have hquote : c ≠ '"' := ne_of_number hc (by decide)
    simp only [Reader.text, hr]
    exact .failure
  | _ =>
    simp only [Reader.text, hr]
    exact .failure

theorem settles_boolean (v : Value) : Settles .boolean v v.boolean? := by
  intro ts s _ hs
  obtain ⟨c, r, hr, hc, -⟩ := hs.value
  cases hc with
  | isTrue =>
    have hs : Spaced (['t', 'r', 'u', 'e'] :: ts) s := hs
    obtain ⟨r, hr, hts⟩ := hs.next rfl
    simp only [Reader.boolean, hr]
    exact .value hts
  | isFalse =>
    have hs : Spaced (['f', 'a', 'l', 's', 'e'] :: ts) s := hs
    obtain ⟨r, hr, hts⟩ := hs.next rfl
    simp only [Reader.boolean, hr]
    exact .value hts
  | number hc =>
    have htrue : c ≠ 't' := ne_of_number hc (by decide)
    have hfalse : c ≠ 'f' := ne_of_number hc (by decide)
    simp only [Reader.boolean, hr]
    exact .failure
  | _ =>
    simp only [Reader.boolean, hr]
    exact .failure

theorem settles_integer (wanted : Wanted) (low high : Int) (v : Value) :
    Settles (.integer wanted low high) v (v.integer? low high) := by
  intro ts s hts hs
  obtain ⟨c, r, hr, hc, -⟩ := hs.value
  cases hc with
  | @number n c hc =>
    rw [Value.tokens, List.singleton_append] at hs
    have hcounts {r : List Char} (hr : Spaced ts r) := counts_numeral n (hr.stops hts)
    obtain ⟨c, cs, hcs, hc⟩ := n.spelling_eq_cons
    rw [hcs] at hs hcounts
    obtain ⟨r, hr, hrest⟩ := hs.next (isSpace_of_number hc)
    have hresult := hcounts hrest
    simp only [Reader.integer, hr, hc, if_true, Value.integer?]
    rw [List.cons_append] at hresult
    generalize n.integer? = o, numeral (c :: (cs ++ r)) = result at hresult
    cases hresult with
    | @integer i =>
      by_cases hrange : low ≤ i ∧ i ≤ high
      · simpa [hrange] using .value hrest
      · simpa [hrange] using .failure
    | other hother =>
      simp only [Option.bind_none]
      split
      · exact .failure
      · next hinteger => exact absurd rfl (hother _ _)
      · exact .failure
  | _ =>
    simp only [Reader.integer, hr]
    exact .failure

theorem settles_int32 (v : Value) : Settles .int32 v v.int32? :=
  (settles_integer _ _ _ v).map Int32.ofInt

/-- What is read as `null` is nothing else. -/
theorem settles_null (v : Value) :
    Settles .null v (match v with | .null => some () | _ => none) := by
  intro ts s _ hs
  obtain ⟨c, r, hr, hc, -⟩ := hs.value
  cases hc with
  | null =>
    have hs : Spaced (['n', 'u', 'l', 'l'] :: ts) s := hs
    obtain ⟨r, hr, hts⟩ := hs.next rfl
    simp only [Reader.null, hr]
    exact .value hts
  | number hc =>
    have hnull : c ≠ 'n' := ne_of_number hc (by decide)
    simp only [Reader.null, hr]
    exact .failure
  | _ =>
    simp only [Reader.null, hr]
    exact .failure

theorem Value.optional?_of_ne_null (M : Value → Option α) {v : Value} (h : v ≠ .null) :
    v.optional? M = (M v).map some := by
  cases v with
  | null => exact absurd rfl h
  | _ => rfl

theorem Value.Starts.ne_n {v : Value} {c : Char} (h : v.Starts c) (hv : v ≠ .null) : c ≠ 'n' := by
  cases h with
  | null => exact absurd rfl hv
  | number h => exact ne_of_number h (by decide)
  | _ => decide

theorem Settles.optional {reader : Reader α} {v : Value} {M : Value → Option α}
    (h : Settles reader v (M v)) : Settles reader.optional v (v.optional? M) := by
  intro ts s hts hs
  by_cases hv : v = .null
  · subst hv
    have hs : Spaced (['n', 'u', 'l', 'l'] :: ts) s := hs
    obtain ⟨r, hr, hts⟩ := hs.next rfl
    simp only [Reader.optional, hr]
    exact .value hts
  · obtain ⟨c, r, hr, hc, hs⟩ := hs.value
    have hn := hc.ne_n hv
    rw [Value.optional?_of_ne_null M hv]
    have hrun : reader.optional.run s = (reader.run (c :: r)).map fun p => (some p.1, p.2) := by
      simp only [Reader.optional, hr]
      split
      · next hcons => exact absurd (List.cons.inj hcons).1 hn
      · rfl
    rw [hrun]
    exact (h hts hs).map some

/-! ### Variants -/

/-- What `choose` makes of the name that letters spell. -/
def chosen? (choose : String → Except Cause α) (letters : List Letter) : Option α :=
  ((Letter.unescape letters).map String.ofList).bind fun name => (choose name).toOption

/-- A variant: its name, or if there is room an object with the name as the only key and no
value. -/
def Value.variant? (room : Bool) (choose : String → Except Cause α) : Value → Option α
  | .text letters => chosen? choose letters
  | .object [(letters, .null)] => if room then chosen? choose letters else none
  | _ => none

theorem yields_variantName (choose : String → Except Cause α) {letters : List Letter}
    {ts : List (List Char)} {s : List Char} (h : Spaced (quoted letters :: ts) s) :
    Yields (Spaced ts) (chosen? choose letters) ((Reader.variantName choose).run s) := by
  have htext := yields_text h
  unfold chosen?
  simp only [Reader.variantName]
  generalize (Letter.unescape letters).map String.ofList = o, Reader.text.run s = result at htext
  cases htext with
  | failure => exact .failure
  | @value name r hr =>
    cases hname : choose name with
    | error e => simpa [hname] using .failure
    | ok a => simpa [hname] using .value hr

theorem colon_spaced {ts : List (List Char)} {s : List Char} (h : Spaced ([':'] :: ts) s) :
    ∃ r, colon s = .ok r ∧ Spaced ts r := by
  obtain ⟨r, hr, hts⟩ := h.after rfl
  exact ⟨r, by rw [colon, hr]; rfl, hts⟩

/-- The object that spells a variant has one member, whose value is `null`. -/
theorem yields_variantObject (choose : String → Except Cause α) {members : List Member}
    {ts : List (List Char)} {s : List Char} (h : Spaced (memberTokens true members ++ ts) s) :
    Yields (Spaced ts) ((Value.object members).variant? true choose)
      (Reader.variantObject choose s) := by
  cases members with
  | nil =>
    obtain ⟨r, hr, -⟩ := h.after rfl
    simp only [Reader.variantObject, Reader.variantKey, hr]
    exact .failure
  | cons m members =>
    obtain ⟨letters, v⟩ := m
    rw [memberTokens, comma, List.append_assoc, List.append_assoc, keyedTokens] at h
    obtain ⟨r, hr, h⟩ := h.here rfl
    have hkey := yields_variantName choose h
    have hrun : (Reader.variantKey choose).run s = (Reader.variantName choose).run ('"' :: r) := by
      simp only [Reader.variantKey, hr]
    rw [Reader.variantObject, hrun]
    generalize ho : chosen? choose letters = o,
      (Reader.variantName choose).run ('"' :: r) = result at hkey
    cases hkey with
    | failure =>
      have hnone : (Value.object ((letters, v) :: members)).variant? true choose = none := by
        cases members <;> cases v <;> simp [Value.variant?, ho]
      rw [hnone]
      exact .failure
    | @value a r₁ hr₁ =>
      obtain ⟨r₂, hcolon, hvalue⟩ := colon_spaced hr₁
      have hnull := settles_null v (follows_memberTokens members ts) hvalue
      simp only [hcolon]
      cases v with
      | null =>
        generalize Reader.null.run r₂ = result at hnull
        cases hnull with
        | @value _ r₃ hr₃ =>
          cases members with
          | nil =>
            obtain ⟨r₄, hr₄, hts⟩ := hr₃.after rfl
            simpa [closeVariant, hr₄, Value.variant?, ho, Except.map] using .value hts
          | cons m members =>
            rw [memberTokens, comma, List.append_assoc, List.append_assoc] at hr₃
            obtain ⟨r₄, hr₄, -⟩ := hr₃.after rfl
            simpa [closeVariant, hr₄, Value.variant?, Except.map] using .failure
      | boolean | number | text | list | object =>
        generalize Reader.null.run r₂ = result at hnull
        cases hnull
        cases members <;> exact .failure

theorem settles_variant (room : Bool) (choose : String → Except Cause α) (v : Value) :
    Settles (.variant room choose) v (v.variant? room choose) := by
  intro ts s _ hs
  obtain ⟨c, r, hr, hc, -⟩ := hs.value
  cases hc with
  | text =>
    rw [Value.tokens, List.singleton_append] at hs
    obtain ⟨r, hr, hs⟩ := hs.here rfl
    simp only [Reader.variant, hr]
    exact yields_variantName choose hs
  | @object members =>
    rw [Value.tokens, List.cons_append] at hs
    obtain ⟨r, hr, hs⟩ := hs.after rfl
    simp only [Reader.variant, hr]
    cases room with
    | true => exact yields_variantObject choose hs
    | false =>
      have hnone : (Value.object members).variant? false choose = none := by
        unfold Value.variant?
        split <;> simp_all
      rw [hnone]
      exact .failure
  | number hc =>
    have hquote : c ≠ '"' := ne_of_number hc (by decide)
    have hobject : c ≠ '\x7b' := ne_of_number hc (by decide)
    simp only [Reader.variant, hr]
    exact .failure
  | _ =>
    simp only [Reader.variant, hr]
    exact .failure

/-! ### Lists -/

/-- The next item, or the end of the list. -/
theorem nextItem_cons (first : Bool) {v : Value} {vs : List Value} {ts : List (List Char)}
    {s : List Char} (h : Spaced (itemTokens first (v :: vs) ++ ts) s) :
    ∃ r, nextItem first s = .ok (true, r) ∧
      Spaced (v.tokens ++ (itemTokens false vs ++ ts)) r := by
  rw [itemTokens, List.append_assoc, List.append_assoc] at h
  cases first with
  | true =>
    obtain ⟨c, r, hr, hc, hs⟩ := h.value
    have hclosing : c ≠ ']' := hc.ne (by simp)
    refine ⟨c :: r, ?_, hs⟩
    simp only [nextItem, hr]
    rfl
  | false =>
    obtain ⟨r, hr, h⟩ := Spaced.after h rfl
    obtain ⟨c, r', hr', hc, hs⟩ := h.value
    have hclosing : c ≠ ']' := hc.ne (by simp)
    refine ⟨c :: r', ?_, hs⟩
    simp only [nextItem, hr, hr', Char.reduceEq, imp_self, Bool.false_eq_true, if_false, if_true]
    split
    · next hnil => cases hnil
    · next hcons => exact absurd (List.cons.inj hcons).1 hclosing
    · rfl

theorem nextItem_nil (first : Bool) {ts : List (List Char)} {s : List Char}
    (h : Spaced (itemTokens first [] ++ ts) s) :
    ∃ r, nextItem first s = .ok (false, r) ∧ Spaced ts r := by
  obtain ⟨r, hr, hts⟩ := h.after rfl
  exact ⟨r, by simp only [nextItem, hr], hts⟩

theorem yields_items {item : Reader α} {M : Value → Option α} {vs : List Value}
    (h : ∀ v ∈ vs, Settles item v (M v)) (acc : List α) (first : Bool) {ts : List (List Char)}
    {s : List Char} (hs : Spaced (itemTokens first vs ++ ts) s) :
    Yields (Spaced ts) ((vs.mapM M).map (acc.reverse ++ ·)) (items item acc first s) := by
  induction vs generalizing acc first s with
  | nil =>
    obtain ⟨r, hr, hts⟩ := nextItem_nil first hs
    rw [items_eq, hr]
    simpa using .value hts
  | cons v vs ih =>
    obtain ⟨hv, hvs⟩ := List.forall_mem_cons.mp h
    obtain ⟨r, hr, hitem⟩ := nextItem_cons first hs
    have hread := hv (follows_itemTokens vs ts) hitem
    rw [items_eq, hr, List.mapM_cons]
    simp only
    generalize M v = o, item.run r = result at hread
    cases hread with
    | failure => exact .failure
    | @value a r' hr' =>
      have hrest := ih hvs (a :: acc) false hr'
      simpa [Option.map_eq_bind, Option.bind_assoc, Function.comp_def] using hrest

/-- The values of the items of a list. -/
def Value.list? (M : Value → Option α) : Value → Option (List α)
  | .list vs => vs.mapM M
  | _ => none

/-- A list is settled if its items are. -/
theorem settles_list {item : Reader α} {M : Value → Option α} {vs : List Value}
    (h : ∀ v ∈ vs, Settles item v (M v)) : Settles (.list (some item)) (.list vs) (vs.mapM M) := by
  intro ts s _ hs
  rw [Value.tokens, List.cons_append] at hs
  obtain ⟨r, hr, hs⟩ := hs.after rfl
  have hitems := yields_items h [] true hs
  simp only [Reader.list, hr]
  simpa using hitems

/-- Nothing but a list is read as one, and none where none may be opened. -/
theorem settles_list_other (item : Option (Reader α)) {v : Value}
    (h : item = none ∨ ∀ vs, v ≠ .list vs) : Settles (.list item) v none := by
  intro ts s _ hs
  obtain ⟨c, r, hr, hc, -⟩ := hs.value
  cases hc with
  | list =>
    obtain rfl : item = none := h.resolve_right fun hne => hne _ rfl
    simp only [Reader.list, hr]
    exact .failure
  | number hc =>
    have hbracket : c ≠ '[' := ne_of_number hc (by decide)
    simp only [Reader.list, hr]
    exact .failure
  | _ =>
    simp only [Reader.list, hr]
    exact .failure

/-! ### Records -/

theorem yields_key {letters : List Letter} {ts : List (List Char)} {r : List Char}
    (h : Spaced (quoted letters :: ts) ('"' :: r)) :
    Yields (Spaced ts) (((Letter.unescape letters).map String.ofList).map some)
      (nextKey.key ('"' :: r)) :=
  (yields_text h).map some

/-- The next key, with the colon, the value and the other members behind it. -/
theorem yields_nextKey (first : Bool) {m : Member} {ms : List Member} {ts : List (List Char)}
    {s : List Char} (h : Spaced (memberTokens first (m :: ms) ++ ts) s) :
    Yields (Spaced ([':'] :: (m.2.tokens ++ (memberTokens false ms ++ ts)))) (m.key?.map some)
      (nextKey first s) := by
  rw [memberTokens, List.append_assoc, List.append_assoc, keyedTokens] at h
  cases first with
  | true =>
    obtain ⟨r, hr, hs⟩ := Spaced.here h rfl
    simp only [nextKey, hr]
    exact yields_key hs
  | false =>
    obtain ⟨r, hr, h⟩ := Spaced.after h rfl
    obtain ⟨r', hr', hs⟩ := Spaced.here h rfl
    have hnext : nextKey false s = nextKey.key ('"' :: r') := by simp [nextKey, hr, hr']
    rw [hnext]
    exact yields_key hs

theorem nextKey_nil (first : Bool) {ts : List (List Char)} {s : List Char}
    (h : Spaced (memberTokens first [] ++ ts) s) :
    ∃ r, nextKey first s = .ok (none, r) ∧ Spaced ts r := by
  obtain ⟨r, hr, hts⟩ := h.after rfl
  exact ⟨r, by simp only [nextKey, hr], hts⟩

namespace Schema

variable {φ : Type} {β : φ → Type} [DecidableEq φ]

/-- The field that a member gives, if any; `none` if its key is none. -/
def given? (S : Schema φ β) (m : Member) : Option (Option φ) :=
  m.key?.map S.field?

/-- The draft with what a member gives, if it can be added; `M` reads the values of the fields. -/
def add? (S : Schema φ β) (M : (f : φ) → Value → Option (β f)) (d : Draft β) (m : Member) :
    Option (Draft β) :=
  match S.given? m with
  | none => none
  | some none => some d
  | some (some f) => if (d f).isSome then none else (M f m.2).map (d.set f)

theorem yields_member {S : Schema φ β} {M : (f : φ) → Value → Option (β f)} {m : Member}
    {key : String} (hkey : m.key? = some key)
    (h : ∀ f, S.given? m = some (some f) → Settles (S.value f) m.2 (M f m.2)) (d : Draft β)
    {ts : List (List Char)} {s : List Char} (hts : Follows ts)
    (hs : Spaced ([':'] :: (m.2.tokens ++ ts)) s) :
    Yields (Spaced ts) (S.add? M d m) (S.member d key s) := by
  obtain ⟨r, hcolon, hvalue⟩ := colon_spaced hs
  have hgiven : S.given? m = some (S.field? key) := by rw [given?, hkey, Option.map_some]
  unfold add? member
  rw [hgiven] at h ⊢
  generalize S.field? key = field at h
  cases field with
  | none =>
    obtain ⟨r', hpass, hr'⟩ := passValue_spelling m.2 hts hvalue
    simp only [hcolon, hpass]
    exact .value hr'
  | some f =>
    by_cases hd : (d f).isSome
    · simp only [hd, if_true]
      exact .failure
    · have hread := h f rfl hts hvalue
      simp only [hd, hcolon, Bool.false_eq_true, if_false]
      exact hread.map (d.set f)

theorem yields_members {S : Schema φ β} {M : (f : φ) → Value → Option (β f)} {ms : List Member}
    (h : ∀ m ∈ ms, ∀ f, S.given? m = some (some f) → Settles (S.value f) m.2 (M f m.2))
    (first : Bool) (d : Draft β) {ts : List (List Char)} {s : List Char}
    (hs : Spaced (memberTokens first ms ++ ts) s) :
    Yields (Spaced ts) (ms.foldlM (S.add? M) d) (S.members first d s) := by
  induction ms generalizing first d s with
  | nil =>
    obtain ⟨r, hr, hts⟩ := nextKey_nil first hs
    rw [members_eq, hr]
    exact .value hts
  | cons m ms ih =>
    obtain ⟨hm, hms⟩ := List.forall_mem_cons.mp h
    have hnext := yields_nextKey first hs
    rw [members_eq, List.foldlM_cons]
    generalize hkey : m.key? = o, nextKey first s = result at hnext
    cases o with
    | none =>
      have hadd : S.add? M d m = none := by rw [add?, given?, hkey, Option.map_none]
      cases hnext
      rw [hadd]
      exact .failure
    | some key =>
      cases hnext with
      | @value _ r hr =>
        have hmember := yields_member hkey hm d (follows_memberTokens ms ts) hr
        simp only
        generalize S.add? M d m = o, S.member d key r = result at hmember
        cases hmember with
        | failure => exact .failure
        | value hr' => exact ih hms false _ hr'

/-- An object is read as a record if its members can be added one after the other and make one. -/
theorem settles_record {α : Type} (title : String) {S : Schema φ β} (build : Draft β → Except φ α)
    {M : (f : φ) → Value → Option (β f)} {ms : List Member}
    (h : ∀ m ∈ ms, ∀ f, S.given? m = some (some f) → Settles (S.value f) m.2 (M f m.2)) :
    Settles (record title (some S) build) (.object ms)
      ((ms.foldlM (S.add? M) .empty).bind fun d => (build d).toOption) := by
  intro ts s _ hs
  rw [Value.tokens, List.cons_append] at hs
  obtain ⟨r, hr, hs⟩ := hs.after rfl
  have hmembers := yields_members h true .empty hs
  simp only [record, hr]
  generalize ms.foldlM (S.add? M) .empty = o, S.members true .empty r = result at hmembers
  cases hmembers with
  | failure => exact .failure
  | @value d r' hr' =>
    cases hbuild : build d with
    | error f => simpa [hbuild] using .failure
    | ok a => simpa [hbuild] using .value hr'

/-- No scalar is read as a record, and nothing is where none may be opened. -/
theorem settles_record_other {α : Type} (title : String) (schema : Option (Schema φ β))
    (build : Draft β → Except φ α) {v : Value}
    (h : schema = none ∨ (∀ vs, v ≠ .list vs) ∧ ∀ ms, v ≠ .object ms) :
    Settles (record title schema build) v none := by
  intro ts s _ hs
  obtain ⟨c, r, hr, hc, -⟩ := hs.value
  cases hc with
  | list =>
    obtain rfl : schema = none := h.resolve_right fun hne => hne.1 _ rfl
    simp only [record, hr]
    exact .failure
  | object =>
    obtain rfl : schema = none := h.resolve_right fun hne => hne.2 _ rfl
    simp only [record, hr]
    exact .failure
  | number hc =>
    have hlist : c ≠ '[' := ne_of_number hc (by decide)
    have hobject : c ≠ '\x7b' := ne_of_number hc (by decide)
    simp only [record, hr]
    exact .failure
  | _ =>
    simp only [record, hr]
    exact .failure

end Schema

/-- A whole text that spells a value is read as what is made of the value. -/
theorem Settles.readAll {reader : Reader α} {v : Value} {o : Option α} (h : Settles reader v o)
    {text : String} (htext : v.Spells text) (a : α) :
    reader.readAll text = .ok a ↔ o = some a := by
  have hread := @h [] text.toList (by simp [Follows]) (by rwa [List.append_nil])
  simp only [Reader.readAll]
  generalize reader.run text.toList = result at hread
  cases hread with
  | failure => simp
  | value hr => simp [hr.skipSpace_eq_nil]

end LayoutCompiler.Json
