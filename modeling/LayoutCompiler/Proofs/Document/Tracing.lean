import LayoutCompiler.Proofs.Document.Spelling
import Mathlib.Algebra.Order.BigOperators.Group.List
import Mathlib.Algebra.Order.Ring.Nat

/-
Decoders that take notes. A traced decoder ends as the decoder does, and notes every
number that announces items or bytes and every item of a list that was read, also where
decoding fails later on (`Traced`). It keeps an account of the bytes (`Accounts`): four
of them have been taken for every item, and if nothing failed then all that was
announced was there. Decoders that run one after another keep one account (`Traces`),
so a list does if its items do.
-/

namespace LayoutCompiler.Document

/-! ### Notes -/

/-- What the numbers in front of lists and texts count. -/
inductive Counted where
  | texts
  | textBytes
  | operations
  | modifiers
  deriving DecidableEq, Repr

/-- The bytes that one of them takes at least. -/
def Counted.least : Counted → Nat
  | texts => 8
  | textBytes => 1
  | operations | modifiers => 4

/-- What is noted while bytes are decoded. -/
inductive Note where
  /-- A number was read, and `left` is what was behind it. -/
  | announced (what : Counted) (count : Nat) (left : Bytes)
  /-- An item of a list was read. -/
  | item
  deriving DecidableEq, Repr

/-- The items that were read, those inside of other items among them. -/
def itemCount (notes : List Note) : Nat :=
  notes.count .item

theorem itemCount_append (notes more : List Note) :
    itemCount (notes ++ more) = itemCount notes + itemCount more :=
  List.count_append

/-- The number that a note tells of is in the bytes, and behind it what was left. -/
def Note.IsIn (bytes : Bytes) : Note → Prop
  | announced _ count left => encodeLength count ++ left <:+ bytes
  | item => True

/-- What was left is long enough for as many as were announced. -/
def Note.IsCovered : Note → Prop
  | announced what count left => what.least * count ≤ left.length
  | item => True

theorem Note.IsIn.of_suffix {n : Note} {bytes whole : Bytes} (h : n.IsIn bytes)
    (hbytes : bytes <:+ whole) : n.IsIn whole := by
  cases n with
  | announced what count left => exact List.IsSuffix.trans h hbytes
  | item => trivial

/-! ### Traced decoders -/

/-- A decoder that takes notes up to its end, or to where it fails. -/
def Traced (α : Type) : Type :=
  Bytes → Except DecodeError (α × Bytes) × List Note

instance : Monad Traced where
  pure a bytes := (.ok (a, bytes), [])
  bind first next bytes :=
    match first bytes with
    | (.ok (a, left), notes) => ((next a left).1, notes ++ (next a left).2)
    | (.error e, notes) => (.error e, notes)

section Traced

variable {α : Type}

/-- A decoder that has nothing to note. -/
def untraced (decode : Decoder α) : Traced α := fun bytes =>
  (decode bytes, [])

def tracedLength (what : Counted) : Traced Nat := do
  let count ← untraced decodeLength
  fun left => (.ok (count, left), [.announced what count left])

def tracedItem (traced : Traced α) : Traced α := do
  let a ← traced
  fun left => (.ok (a, left), [.item])

def tracedItems (traced : Traced α) : (n : Nat) → Traced (List α)
  | 0 => return []
  | n + 1 => do
    let a ← tracedItem traced
    let l ← tracedItems traced n
    return a :: l

def tracedList (what : Counted) (traced : Traced α) : Traced (List α) := do
  let n ← tracedLength what
  tracedItems traced n

end Traced

/-! ### Accounts of the bytes -/

/-- The account that a run on `bytes` gives of them. A value stands in the relation `Spends` to the
number of items that were read for it and to the number of bytes that were taken. -/
inductive Accounts {α : Type} (Spends : α → Nat → Nat → Prop) (bytes : Bytes) :
    Except DecodeError (α × Bytes) × List Note → Prop where
  | ok {a : α} {taken left : Bytes} {notes : List Note} : bytes = taken ++ left →
      (∀ n ∈ notes, n.IsIn bytes ∧ n.IsCovered) → 4 * itemCount notes ≤ taken.length →
        Spends a (itemCount notes) taken.length → Accounts Spends bytes (.ok (a, left), notes)
  | error {e : DecodeError} {notes : List Note} : (∀ n ∈ notes, n.IsIn bytes) →
      4 * itemCount notes ≤ bytes.length → Accounts Spends bytes (.error e, notes)

section Accounts

variable {α : Type} {S T : α → Nat → Nat → Prop} {bytes : Bytes}
  {run : Except DecodeError (α × Bytes) × List Note}

theorem Accounts.mono (h : Accounts S bytes run) (hS : ∀ a k t, S a k t → T a k t) :
    Accounts T bytes run := by
  cases h with
  | ok hbytes hnotes hcount hspends => exact .ok hbytes hnotes hcount (hS _ _ _ hspends)
  | error hnotes hcount => exact .error hnotes hcount

theorem Accounts.isIn (h : Accounts S bytes run) : ∀ n ∈ run.2, n.IsIn bytes := by
  cases h with
  | ok _ hnotes => exact fun n hn => (hnotes n hn).1
  | error hnotes => exact hnotes

theorem Accounts.four_mul_itemCount_le (h : Accounts S bytes run) :
    4 * itemCount run.2 ≤ bytes.length := by
  cases h with
  | ok hbytes _ hcount =>
    rw [hbytes, List.length_append]
    exact hcount.trans (Nat.le_add_right _ _)
  | error _ hcount => exact hcount

/-- A run on what another one left accounts for the bytes of both. What the first one noted has to
be covered only if the second one does not fail: a number is covered by what it announces, and that
is decoded after it. -/
theorem Accounts.after {taken left : Bytes} {notes more : List Note}
    {outcome : Except DecodeError (α × Bytes)} (hin : ∀ n ∈ notes, n.IsIn (taken ++ left))
    (hcount : 4 * itemCount notes ≤ taken.length)
    (hcovered : ∀ result, outcome = .ok result → ∀ n ∈ notes, n.IsCovered)
    (hrun : Accounts (fun a k t => T a (itemCount notes + k) (taken.length + t)) left
      (outcome, more)) :
    Accounts T (taken ++ left) (outcome, notes ++ more) := by
  have hsuffix := List.suffix_append taken left
  cases hrun with
  | @ok a taken' left' _ hleft hmore hcount' hspends =>
    subst hleft
    refine .ok (List.append_assoc taken taken' left').symm ?_ ?_ ?_
    · intro n hn
      rcases List.mem_append.mp hn with hn | hn
      · exact ⟨hin n hn, hcovered _ rfl n hn⟩
      · exact ⟨(hmore n hn).1.of_suffix hsuffix, (hmore n hn).2⟩
    · rw [itemCount_append, List.length_append]
      omega
    · rwa [itemCount_append, List.length_append]
  | error hmore hcount' =>
    refine .error ?_ ?_
    · intro n hn
      rcases List.mem_append.mp hn with hn | hn
      · exact hin n hn
      · exact (hmore n hn).of_suffix hsuffix
    · rw [itemCount_append, List.length_append]
      omega

end Accounts

/-! ### Decoders that run one after another -/

/-- A traced decoder ends as `decode` does, and accounts for the bytes. -/
def Traces {α : Type} (traced : Traced α) (decode : Decoder α) (Spends : α → Nat → Nat → Prop) :
    Prop :=
  ∀ bytes, (traced bytes).1 = decode bytes ∧ Accounts Spends bytes (traced bytes)

section Traces

variable {α β : Type} {traced : Traced α} {decode : Decoder α} {S : α → Nat → Nat → Prop}
  {T : β → Nat → Nat → Prop}

theorem Traces.mono {S' : α → Nat → Nat → Prop} (h : Traces traced decode S)
    (hS : ∀ a k t, S a k t → S' a k t) : Traces traced decode S' := by
  intro bytes
  obtain ⟨houtcome, hrun⟩ := h bytes
  exact ⟨houtcome, hrun.mono hS⟩

theorem Traces.pure {a : α} (h : S a 0 0) : Traces (pure a) (pure a) S := by
  intro bytes
  exact ⟨rfl, .ok (List.nil_append bytes).symm (List.forall_mem_nil _) (Nat.zero_le _) h⟩

theorem Traces.throw (e : DecodeError) : Traces (untraced (throw e)) (throw e) S := by
  intro bytes
  exact ⟨rfl, .error (List.forall_mem_nil _) (Nat.zero_le _)⟩

/-- Where nothing is noted, a value spends the bytes that spell it. -/
theorem Traces.untraced {Spells : α → Bytes → Prop} (h : Takes decode Spells) :
    Traces (untraced decode) decode
      fun a k t => k = 0 ∧ ∃ front, Spells a front ∧ front.length = t := by
  intro bytes
  refine ⟨rfl, ?_⟩
  show Accounts _ bytes (decode bytes, [])
  cases hdecode : decode bytes with
  | error e => exact .error (List.forall_mem_nil _) (Nat.zero_le _)
  | ok result =>
    obtain ⟨a, left⟩ := result
    obtain ⟨front, hbytes, hfront⟩ := h.spells bytes a left hdecode
    exact .ok hbytes (List.forall_mem_nil _) (Nat.zero_le _) ⟨rfl, front, hfront, rfl⟩

/-- Two decoders that run one after the other account for the bytes together. -/
theorem Traces.bind {tracedNext : α → Traced β} {next : α → Decoder β}
    (first : Traces traced decode S)
    (second : ∀ a k t, S a k t →
      Traces (tracedNext a) (next a) fun b j u => T b (k + j) (t + u)) :
    Traces (traced >>= tracedNext) (decode >>= next) T := by
  intro bytes
  obtain ⟨houtcome, hrun⟩ := first bytes
  simp only [Bind.bind, StateT.bind]
  rw [← houtcome]
  generalize traced bytes = run at hrun ⊢
  cases hrun with
  | error hnotes hcount => exact ⟨rfl, .error hnotes hcount⟩
  | @ok a taken left notes hbytes hnotes hcount hspends =>
    obtain ⟨houtcome', hrun'⟩ := second a _ _ hspends left
    subst hbytes
    exact ⟨houtcome', .after (fun n hn => (hnotes n hn).1) hcount
      (fun _ _ n hn => (hnotes n hn).2) hrun'⟩

/-- The last of several steps may take nothing. -/
theorem Traces.map {f : α → β} (first : Traces traced decode S)
    (h : ∀ a k t, S a k t → T (f a) k t) :
    Traces (do let a ← traced; return f a) (do let a ← decode; return f a) T :=
  first.bind fun a k t hspends => .pure (h a k t hspends)

/-- A number is covered by what is decoded behind it, if that takes as many bytes as were announced
at least. -/
theorem Traces.announced {tracedNext : Nat → Traced α} {next : Nat → Decoder α} (what : Counted)
    (h : ∀ n, Traces (tracedNext n) (next n) fun a k t => what.least * n ≤ t ∧ S a k (8 + t)) :
    Traces (tracedLength what >>= tracedNext) (decodeLength >>= next) S := by
  intro bytes
  simp only [tracedLength, Document.untraced, Bind.bind, StateT.bind]
  cases hlength : decodeLength bytes with
  | error e => exact ⟨rfl, .error (List.forall_mem_nil _) (Nat.zero_le _)⟩
  | ok result =>
    obtain ⟨n, left⟩ := result
    obtain ⟨front, rfl, rfl, -⟩ := takes_length.spells bytes n left hlength
    obtain ⟨houtcome, hrun⟩ := h n left
    refine ⟨houtcome, ?_⟩
    show Accounts S _ ((tracedNext n left).1, [.announced what n left] ++ (tracedNext n left).2)
    refine .after ?_ (Nat.zero_le _) ?_ ?_
    · exact List.forall_mem_singleton.mpr (List.suffix_refl _)
    · -- Only here is it known that the run behind the number gave a value, and so took its bytes.
      intro result hresult
      refine List.forall_mem_singleton.mpr ?_
      generalize tracedNext n left = run at hrun hresult
      cases hrun with
      | ok hleft _ _ hspends =>
        rw [Note.IsCovered, hleft, List.length_append]
        exact hspends.1.trans (Nat.le_add_right _ _)
      | error => cases hresult
    · refine hrun.mono fun a k t hspends => ?_
      have hnone : itemCount [.announced what n left] = 0 := rfl
      rw [hnone, Nat.zero_add, encodeLength, length_littleEndian]
      exact hspends.2

/-- An item that was read is one more. -/
theorem Traces.item (h : Traces traced decode S) (hS : ∀ a k t, S a k t → 4 * (k + 1) ≤ t) :
    Traces (tracedItem traced) decode fun a k t => ∃ j, k = j + 1 ∧ S a j t := by
  intro bytes
  obtain ⟨houtcome, hrun⟩ := h bytes
  simp only [tracedItem, Bind.bind]
  rw [← houtcome]
  generalize traced bytes = run at hrun ⊢
  cases hrun with
  | error hnotes hcount => exact ⟨rfl, .error hnotes hcount⟩
  | @ok a taken left notes hbytes hnotes hcount hspends =>
    have hmore : itemCount (notes ++ [.item]) = itemCount notes + 1 := itemCount_append _ _
    refine ⟨rfl, .ok hbytes ?_ ?_ ?_⟩
    · intro n hn
      rcases List.mem_append.mp hn with hn | hn
      · exact hnotes n hn
      · rw [List.mem_singleton.mp hn]
        exact ⟨trivial, trivial⟩
    · rw [hmore]
      exact hS _ _ _ hspends
    · rw [hmore]
      exact ⟨_, rfl, hspends⟩

/-! ### Lists -/

section Lists

-- `inner` counts the items inside of an item. The bytes of an item pay for these and for itself.
variable {inner least : α → Nat}
  (item : Traces traced decode fun a k t => k = inner a ∧ least a ≤ t)
  (hleast : ∀ a, 4 * (inner a + 1) ≤ least a)

include item hleast

/-- The items of a list account for the bytes one by one. -/
theorem traces_items (n : Nat) :
    Traces (tracedItems traced n) (decodeItems decode n) fun l k t =>
      l.length = n ∧ k = l.length + (l.map inner).sum ∧ (l.map least).sum ≤ t := by
  induction n with
  | zero => exact .pure ⟨rfl, rfl, Nat.le_refl 0⟩
  | succ n ih =>
    refine (item.item ?_).bind ?_
    · rintro a k t ⟨rfl, ht⟩
      exact (hleast a).trans ht
    · rintro a _ t ⟨k, rfl, rfl, ht⟩
      refine ih.map ?_
      rintro l k u ⟨rfl, rfl, hu⟩
      refine ⟨rfl, ?_, Nat.add_le_add ht hu⟩
      rw [List.length_cons, List.map_cons, List.sum_cons]
      omega

theorem traces_list (what : Counted) (hwhat : ∀ a, what.least ≤ least a) :
    Traces (tracedList what traced) (decodeList decode) fun l k t =>
      k = l.length + (l.map inner).sum ∧ 8 + (l.map least).sum ≤ t := by
  refine .announced what fun n => (traces_items item hleast n).mono ?_
  rintro l k t ⟨rfl, hk, ht⟩
  have hitems := List.card_nsmul_le_sum (l.map least) what.least
    (List.forall_mem_map.mpr fun a _ => hwhat a)
  rw [List.length_map, Nat.nsmul_eq_mul, Nat.mul_comm] at hitems
  exact ⟨hitems.trans ht, hk, Nat.add_le_add_left ht 8⟩

end Lists

end Traces

end LayoutCompiler.Document
