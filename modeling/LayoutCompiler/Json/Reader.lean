import LayoutCompiler.Json.Ignored

/-
Readers of typed JSON values. A reader skips white space, reads one value and
returns the text after it, which is shorter; that proof makes the loops over
items end.

A value of another type than the one wanted is still read as a whole if it is a
scalar, so that the failure is placed after it, and a syntax error inside it
comes first. A failure at a list or an object is placed before its bracket.
-/

namespace LayoutCompiler.Json

open Number (isDigit)

/-- A way to read values of one type. -/
structure Reader (α : Type) where
  run : List Char → Except Failure (α × List Char)
  /-- A successful reading leaves less text. -/
  shortens : ∀ {s a r}, run s = .ok (a, r) → r.length < s.length

/-- The failure for a value that has been read, or whose reading failed, instead of a wanted one. -/
def instead (wanted : Wanted) : Except Failure (Found × List Char) → Failure
  | .error e => e
  | .ok (found, rest) => .before (.wrongType found wanted) rest

/-- The failure at a value that is not of the wanted type; the text starts with the value. -/
def mismatch (wanted : Wanted) : List Char → Failure
  | [] => .inside .endInValue []
  | 'n' :: r => instead wanted ((word ['u', 'l', 'l'] r).map fun t => (.null, t))
  | 't' :: r => instead wanted ((word ['r', 'u', 'e'] r).map fun t => (.boolean true, t))
  | 'f' :: r => instead wanted ((word ['a', 'l', 's', 'e'] r).map fun t => (.boolean false, t))
  | '"' :: r => instead wanted ((scanText [] r).map fun (s, t) => (.text s, t))
  | '[' :: r => instead wanted (.ok (.sequence, '[' :: r))
  | '\x7b' :: r => instead wanted (.ok (.map, '\x7b' :: r))
  | c :: r =>
    if c = '-' ∨ isDigit c then
      instead wanted ((numeral (c :: r)).map fun (n, t) => (n.found, t))
    else .inside .expectedValue (c :: r)

namespace Reader

variable {α β : Type}

/-- Reads a value and applies `f` to it. -/
def map (f : α → β) (reader : Reader α) : Reader β where
  run s := (reader.run s).map fun (a, r) => (f a, r)
  shortens := by
    intro s b r h
    obtain ⟨⟨_, _⟩, read, eq⟩ := exists_of_map_eq_ok h
    cases eq
    exact reader.shortens read

/-- Reads an integer between `low` and `high`. -/
def integer (wanted : Wanted) (low high : Int) : Reader Int where
  run s :=
    match skipSpace s with
    | [] => .error (.inside .endInValue [])
    | c :: r =>
      if c = '-' ∨ isDigit c then
        match numeral (c :: r) with
        | .error e => .error e
        | .ok (.integer n, r) =>
          if low ≤ n ∧ n ≤ high then .ok (n, r) else .error (.before (.outOfRange n wanted) r)
        | .ok (n, r) => .error (.before (.wrongType n.found wanted) r)
      else .error (mismatch wanted (c :: r))
  shortens := by
    intro s n r h
    have spaced := skipSpace_length s
    split at h
    · simp at h
    · next tail =>
      rw [tail] at spaced
      split at h
      · split at h
        · simp at h
        · next read =>
          have := numeral_length read
          split at h
          · cases h
            omega
          · simp at h
        · simp at h
      · simp at h

/-- Reads a signed word of 32 bits. -/
def int32 : Reader Int32 :=
  (integer .signedWord (-0x80000000) 0x7FFFFFFF).map Int32.ofInt

/-- Reads an unsigned word of 32 bits. -/
def word32 : Reader UInt32 :=
  (integer .unsignedWord 0 0xFFFFFFFF).map fun n => UInt32.ofNat n.toNat

/-- Reads a text. -/
def text : Reader String where
  run s :=
    match skipSpace s with
    | [] => .error (.inside .endInValue [])
    | '"' :: r => scanText [] r
    | c :: r => .error (mismatch .text (c :: r))
  shortens := by
    intro s t r h
    have spaced := skipSpace_length s
    split at h
    · simp at h
    · next tail =>
      simp only [tail, List.length_cons] at spaced
      have := scanText_length h
      omega
    · simp at h

/-- Reads `true` or `false`. -/
def boolean : Reader Bool where
  run s :=
    match skipSpace s with
    | [] => .error (.inside .endInValue [])
    | 't' :: r => (word ['r', 'u', 'e'] r).map fun r => (true, r)
    | 'f' :: r => (word ['a', 'l', 's', 'e'] r).map fun r => (false, r)
    | c :: r => .error (mismatch .boolean (c :: r))
  shortens := by
    intro s b r h
    have spaced := skipSpace_length s
    split at h
    · simp at h
    · next tail =>
      simp only [tail, List.length_cons] at spaced
      obtain ⟨_, w, eq⟩ := exists_of_map_eq_ok h
      cases eq
      have := word_length w
      omega
    · next tail =>
      simp only [tail, List.length_cons] at spaced
      obtain ⟨_, w, eq⟩ := exists_of_map_eq_ok h
      cases eq
      have := word_length w
      omega
    · simp at h

/-- Reads `null`. -/
def null : Reader Unit where
  run s :=
    match skipSpace s with
    | [] => .error (.inside .endInValue [])
    | 'n' :: r => (word ['u', 'l', 'l'] r).map fun r => ((), r)
    | c :: r => .error (mismatch .unit (c :: r))
  shortens := by
    intro s b r h
    have spaced := skipSpace_length s
    split at h
    · simp at h
    · next tail =>
      simp only [tail, List.length_cons] at spaced
      obtain ⟨_, w, eq⟩ := exists_of_map_eq_ok h
      cases eq
      have := word_length w
      omega
    · simp at h

/-- Reads `null` as nothing, or a value. -/
def optional (reader : Reader α) : Reader (Option α) where
  run s :=
    match skipSpace s with
    | 'n' :: r => (word ['u', 'l', 'l'] r).map fun r => (none, r)
    | r => (reader.run r).map fun (a, r) => (some a, r)
  shortens := by
    intro s b r h
    have spaced := skipSpace_length s
    split at h
    · next tail =>
      simp only [tail, List.length_cons] at spaced
      obtain ⟨_, w, eq⟩ := exists_of_map_eq_ok h
      cases eq
      have := word_length w
      omega
    · obtain ⟨⟨_, _⟩, read, eq⟩ := exists_of_map_eq_ok h
      cases eq
      have := reader.shortens read
      omega

end Reader

/-- Reads the colon after a key. -/
def colon (s : List Char) : Except Failure (List Char) :=
  match skipSpace s with
  | [] => .error (.inside .endInObject [])
  | ':' :: r => .ok r
  | c :: r => .error (.inside .expectedColon (c :: r))

theorem colon_length {s r : List Char} (h : colon s = .ok r) : r.length < s.length := by
  have spaced := skipSpace_length s
  unfold colon at h
  split at h
  · simp at h
  · next tail =>
    cases h
    simp only [tail, List.length_cons] at spaced
    omega
  · simp at h

/-- Reads the closing bracket of an object that spells a variant. -/
def closeVariant (s : List Char) : Except Failure (List Char) :=
  match skipSpace s with
  | [] => .error (.before .endInObject [])
  | '\x7d' :: r => .ok r
  | c :: r => .error (.before .expectedValue (c :: r))

theorem closeVariant_length {s r : List Char} (h : closeVariant s = .ok r) :
    r.length ≤ s.length := by
  have spaced := skipSpace_length s
  unfold closeVariant at h
  split at h
  · simp at h
  · next tail =>
    cases h
    simp only [tail, List.length_cons] at spaced
    omega
  · simp at h

namespace Reader

variable {α : Type}

/-- Reads the name of a variant, which `choose` looks up. -/
def variantName (choose : String → Except Cause α) : Reader α where
  run s :=
    match text.run s with
    | .error e => .error e
    | .ok (name, r) =>
      match choose name with
      | .error cause => .error (.before cause r)
      | .ok a => .ok (a, r)
  shortens := by
    intro s a r h
    split at h
    · simp at h
    · next read =>
      have := text.shortens read
      split at h
      · simp at h
      · cases h
        omega

/-- Reads the name of a variant where it is the key of an object. -/
def variantKey (choose : String → Except Cause α) : Reader α where
  run s :=
    match skipSpace s with
    | [] => .error (.inside .endInObject [])
    | '"' :: r => (variantName choose).run ('"' :: r)
    | '\x7d' :: r => .error (.inside .expectedValue ('\x7d' :: r))
    | c :: r => .error (.inside .keyNotText (c :: r))
  shortens := by
    intro s a r h
    have spaced := skipSpace_length s
    split at h
    · simp at h
    · next tail =>
      rw [tail] at spaced
      have := (variantName choose).shortens h
      omega
    · simp at h
    · simp at h

/-- Reads what follows the opening bracket of an object that spells a variant: its name as the
only key, with `null` as the value. -/
def variantObject (choose : String → Except Cause α) (s : List Char) :
    Except Failure (α × List Char) :=
  match (variantKey choose).run s with
  | .error e => .error e
  | .ok (a, r₁) =>
    match colon r₁ with
    | .error e => .error e
    | .ok r₂ =>
      match null.run r₂ with
      | .error e => .error e
      | .ok ((), r₃) => (closeVariant r₃).map fun r₄ => (a, r₄)

theorem variantObject_length {choose : String → Except Cause α} {s r : List Char} {a : α}
    (h : variantObject choose s = .ok (a, r)) : r.length < s.length := by
  unfold variantObject at h
  split at h
  · simp at h
  · next key =>
    have := (variantKey choose).shortens key
    split at h
    · simp at h
    · next colon' =>
      have := colon_length colon'
      split at h
      · simp at h
      · next value =>
        have := null.shortens value
        obtain ⟨_, close, eq⟩ := exists_of_map_eq_ok h
        cases eq
        have := closeVariant_length close
        omega

/-- Reads a variant: its name, or an object with the name as its only key. `room` tells whether
an object may be opened here. -/
def variant (room : Bool) (choose : String → Except Cause α) : Reader α where
  run s :=
    match skipSpace s with
    | [] => .error (.inside .endInValue [])
    | '"' :: r => (variantName choose).run ('"' :: r)
    | '\x7b' :: r =>
      if room then variantObject choose r else .error (.inside .nestingLimit ('\x7b' :: r))
    | c :: r => .error (.inside .expectedValue (c :: r))
  shortens := by
    intro s a r h
    have spaced := skipSpace_length s
    split at h
    · simp at h
    · next tail =>
      rw [tail] at spaced
      have := (variantName choose).shortens h
      omega
    · next tail =>
      simp only [tail, List.length_cons] at spaced
      split at h
      · have := variantObject_length h
        omega
      · simp at h
    · simp at h

end Reader

/-! ### Lists -/

/-- Moves to the next item of an open list, or past its end; `false` if it ends. No comma stands
before the first item. -/
def nextItem (first : Bool) (s : List Char) : Except Failure (Bool × List Char) :=
  match skipSpace s with
  | [] => .error (.inside .endInList [])
  | ']' :: r => .ok (false, r)
  | c :: r =>
    if first then .ok (true, c :: r)
    else if c = ',' then
      match skipSpace r with
      | [] => .error (.inside .endInValue [])
      | ']' :: t => .error (.inside .trailingComma (']' :: t))
      | t => .ok (true, t)
    else .error (.inside .expectedListEnd (c :: r))

theorem nextItem_length {first more : Bool} {s r : List Char}
    (h : nextItem first s = .ok (more, r)) : r.length ≤ s.length := by
  have spaced := skipSpace_length s
  unfold nextItem at h
  split at h
  · simp at h
  · next tail =>
    cases h
    simp only [tail, List.length_cons] at spaced
    omega
  · next c rest _ tail =>
    have spaced' := skipSpace_length rest
    rw [tail] at spaced
    split at h
    · cases h
      exact spaced
    · split at h
      · split at h
        · simp at h
        · simp at h
        · cases h
          simp only [List.length_cons] at spaced spaced'
          omega
      · simp at h

/-- Reads the items of an open list; `acc` holds those before, last one first. -/
def items {α : Type} (item : Reader α) (acc : List α) (first : Bool) (s : List Char) :
    Except Failure (List α × List Char) :=
  match next : nextItem first s with
  | .error e => .error e
  | .ok (false, r) => .ok (acc.reverse, r)
  | .ok (true, r) =>
    match read : item.run r with
    | .error e => .error e
    | .ok (a, t) =>
      have : t.length < s.length :=
        Nat.lt_of_lt_of_le (item.shortens read) (nextItem_length next)
      items item (a :: acc) false t
termination_by s.length

theorem items_length {α : Type} {item : Reader α} {acc l : List α} {first : Bool}
    {s r : List Char} (h : items item acc first s = .ok (l, r)) : r.length ≤ s.length := by
  fun_induction items item acc first s with
  | case1 => simp at h
  | case2 acc first s r' next =>
    have := nextItem_length next
    cases h
    exact this
  | case3 => simp at h
  | case4 acc first s r' next a t read shorter ih =>
    have := ih h
    omega

/-- Reads a list; `item` is `none` if no list may be opened here. -/
def Reader.list {α : Type} (item : Option (Reader α)) : Reader (List α) where
  run s :=
    match skipSpace s with
    | [] => .error (.inside .endInValue [])
    | '[' :: r =>
      match item with
      | none => .error (.inside .nestingLimit ('[' :: r))
      | some item => items item [] true r
    | c :: r => .error (mismatch .sequence (c :: r))
  shortens := by
    intro s l r h
    have spaced := skipSpace_length s
    split at h
    · simp at h
    · next tail =>
      simp only [tail, List.length_cons] at spaced
      split at h
      · simp at h
      · have := items_length h
        omega
    · simp at h

/-- Reads a whole text with `reader`; only white space may follow the value. -/
def Reader.readAll {α : Type} (reader : Reader α) (text : String) : Except Error α :=
  let s := text.toList
  match reader.run s with
  | .error e => .error (e.locate s)
  | .ok (a, r) =>
    match skipSpace r with
    | [] => .ok a
    | c :: t => .error (Failure.locate (.inside .trailingCharacters (c :: t)) s)

end LayoutCompiler.Json
