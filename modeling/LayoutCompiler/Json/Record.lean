import LayoutCompiler.Json.Reader

/-
Readers of records. A schema lists the fields of a record in order, with their
names and the readers of their values. A record is written as an object, with its
fields in any order, or as a list of values in the order of the fields, which may
stop early. Keys that name no field are passed over with their values; a field
must not occur twice. What the fields that were read make, and whether one is
missing that must not be, is for the record's own `build` to say.
-/

namespace LayoutCompiler.Json

/-- The fields of a record that have been read. -/
abbrev Draft {φ : Type} (β : φ → Type) := (f : φ) → Option (β f)

namespace Draft

variable {φ : Type} {β : φ → Type}

/-- The draft without fields. -/
def empty : Draft β := fun _ => none

/-- The draft with the value of one field replaced. -/
def set [DecidableEq φ] (d : Draft β) (f : φ) (b : β f) : Draft β :=
  fun g => if h : f = g then some (h ▸ b) else d g

end Draft

/-- The form of a record: its fields in order, their names and the readers of their values. -/
structure Schema (φ : Type) (β : φ → Type) where
  fields : List φ
  name : φ → String
  value : (f : φ) → Reader (β f)

/-- Moves to the next key of an open object and reads it, or past the end of the object; no comma
stands before the first key. -/
def nextKey (first : Bool) (s : List Char) : Except Failure (Option String × List Char) :=
  match skipSpace s with
  | [] => .error (.inside .endInObject [])
  | '\x7d' :: r => .ok (none, r)
  | c :: r =>
    if first then key (c :: r)
    else if c = ',' then
      match skipSpace r with
      | [] => .error (.inside .endInValue [])
      | '\x7d' :: t => .error (.inside .trailingComma ('\x7d' :: t))
      | t => key t
    else .error (.inside .expectedObjectEnd (c :: r))
where
  /-- Reads a key. -/
  key : List Char → Except Failure (Option String × List Char)
    | '"' :: r => (scanText [] r).map fun (k, t) => (some k, t)
    | s => .error (.inside .keyNotText s)

/-- The text after the closing bracket if it comes next. -/
def pastClosing (s : List Char) : List Char :=
  match skipSpace s with
  | '\x7d' :: r => r
  | r => r

/-- Reads the closing bracket of a list whose fields have all been read. -/
def closeList (s : List Char) : Except Failure (List Char) :=
  match skipSpace s with
  | [] => .error (.inside .endInList [])
  | ']' :: r => .ok r
  | ',' :: r =>
    match skipSpace r with
    | ']' :: t => .error (.inside .trailingComma (']' :: t))
    | t => .error (.inside .trailingCharacters t)
  | c :: r => .error (.inside .trailingCharacters (c :: r))

theorem nextKey_key_length {k : Option String} {s r : List Char}
    (h : nextKey.key s = .ok (k, r)) : r.length < s.length := by
  unfold nextKey.key at h
  split at h
  · obtain ⟨⟨_, _⟩, text, eq⟩ := exists_of_map_eq_ok h
    cases eq
    have := scanText_length text
    simp only [List.length_cons]
    omega
  · simp at h

theorem nextKey_length {first : Bool} {k : Option String} {s r : List Char}
    (h : nextKey first s = .ok (k, r)) : r.length < s.length := by
  have spaced := skipSpace_length s
  unfold nextKey at h
  split at h
  · simp at h
  · next tail =>
    cases h
    simp only [tail, List.length_cons] at spaced
    omega
  · next c rest _ tail =>
    have spaced' := skipSpace_length rest
    rw [tail] at spaced
    split at h
    · have := nextKey_key_length h
      omega
    · split at h
      · split at h
        · simp at h
        · simp at h
        · have := nextKey_key_length h
          simp only [List.length_cons] at spaced
          omega
      · simp at h

theorem closeList_length {s r : List Char} (h : closeList s = .ok r) :
    r.length < s.length := by
  have spaced := skipSpace_length s
  unfold closeList at h
  split at h
  · simp at h
  · next tail =>
    cases h
    simp only [tail, List.length_cons] at spaced
    omega
  · split at h <;> simp at h
  · simp at h

namespace Schema

variable {φ : Type} {β : φ → Type} [DecidableEq φ]

/-- The field with the given name. -/
def field? (S : Schema φ β) (key : String) : Option φ :=
  S.fields.find? fun f => S.name f == key

/-- Reads the value of a key into the draft. -/
def member (S : Schema φ β) (d : Draft β) (key : String) (s : List Char) :
    Except Failure (Draft β × List Char) :=
  match S.field? key with
  | none =>
    match colon s with
    | .error e => .error e
    | .ok r => (passValue r).map fun t => (d, t)
  | some f =>
    if (d f).isSome then .error (.before (.duplicateField (S.name f)) (pastClosing s))
    else
      match colon s with
      | .error e => .error e
      | .ok r => ((S.value f).run r).map fun (b, t) => (d.set f b, t)

theorem member_length {S : Schema φ β} {d d' : Draft β} {key : String}
    {s r : List Char} (h : S.member d key s = .ok (d', r)) : r.length < s.length := by
  unfold member at h
  split at h
  · split at h
    · simp at h
    · next c =>
      have := colon_length c
      obtain ⟨_, v, eq⟩ := exists_of_map_eq_ok h
      cases eq
      have := passValue_length v
      omega
  · next f _ =>
    split at h
    · simp at h
    · split at h
      · simp at h
      · next c =>
        have := colon_length c
        obtain ⟨⟨_, _⟩, v, eq⟩ := exists_of_map_eq_ok h
        cases eq
        have := (S.value f).shortens v
        omega

/-- Reads the members of an open object, up to its end. -/
def members (S : Schema φ β) (first : Bool) (d : Draft β) (s : List Char) :
    Except Failure (Draft β × List Char) :=
  match next : nextKey first s with
  | .error e => .error e
  | .ok (none, r) => .ok (d, r)
  | .ok (some key, r) =>
    match read : S.member d key r with
    | .error e => .error e
    | .ok (d', t) =>
      have : t.length < s.length :=
        Nat.lt_trans (member_length read) (nextKey_length next)
      members S false d' t
termination_by s.length

theorem members_length {S : Schema φ β} {first : Bool} {d d' : Draft β} {s r : List Char}
    (h : S.members first d s = .ok (d', r)) : r.length < s.length := by
  fun_induction members S first d s with
  | case1 => simp at h
  | case2 first d s r' next =>
    have := nextKey_length next
    cases h
    exact this
  | case3 => simp at h
  | case4 first d s key r' next d'' t read shorter ih =>
    have := ih h
    omega

/-- Reads the values of the given fields from an open list, up to its end. -/
def values (S : Schema φ β) (first : Bool) (d : Draft β) :
    (fields : List φ) → List Char → Except Failure (Draft β × List Char)
  | [], s => (closeList s).map fun r => (d, r)
  | f :: fs, s =>
    match nextItem first s with
    | .error e => .error e
    | .ok (false, r) => .ok (d, r)
    | .ok (true, r) =>
      match (S.value f).run r with
      | .error e => .error e
      | .ok (b, t) => values S false (d.set f b) fs t

theorem values_length {S : Schema φ β} {first : Bool} {d d' : Draft β} {fields : List φ}
    {s r : List Char} (h : S.values first d fields s = .ok (d', r)) :
    r.length ≤ s.length := by
  induction fields generalizing first d s with
  | nil =>
    obtain ⟨_, close, eq⟩ := exists_of_map_eq_ok h
    cases eq
    exact Nat.le_of_lt (closeList_length close)
  | cons f fs ih =>
    simp only [values] at h
    split at h
    · simp at h
    · next next =>
      have := nextItem_length next
      cases h
      exact this
    · next next =>
      have := nextItem_length next
      split at h
      · simp at h
      · next read =>
        have := (S.value f).shortens read
        have := ih h
        omega

/-- Reads a record. `build` makes it from its fields, or names a field that is missing; `schema`
is `none` if neither an object nor a list may be opened here. -/
def record {α : Type} (title : String) (schema : Option (Schema φ β))
    (build : Draft β → Except φ α) : Reader α where
  run s :=
    match skipSpace s with
    | [] => .error (.inside .endInValue [])
    | '[' :: r =>
      match schema with
      | none => .error (.inside .nestingLimit ('[' :: r))
      | some S =>
        match S.values true .empty S.fields r with
        | .error e => .error e
        | .ok (d, t) =>
          match build d with
          | .error f =>
            .error (.before (.tooShort (S.fields.idxOf f) title S.fields.length) t)
          | .ok a => .ok (a, t)
    | '\x7b' :: r =>
      match schema with
      | none => .error (.inside .nestingLimit ('\x7b' :: r))
      | some S =>
        match S.members true .empty r with
        | .error e => .error e
        | .ok (d, t) =>
          match build d with
          | .error f => .error (.before (.missingField (S.name f)) t)
          | .ok a => .ok (a, t)
    | c :: r => .error (mismatch (.record title) (c :: r))
  shortens := by
    intro s a r h
    have spaced := skipSpace_length s
    split at h
    · simp at h
    · next tail =>
      simp only [tail, List.length_cons] at spaced
      split at h
      · simp at h
      · split at h
        · simp at h
        · next read =>
          have := values_length read
          split at h
          · simp at h
          · cases h
            omega
    · next tail =>
      simp only [tail, List.length_cons] at spaced
      split at h
      · simp at h
      · split at h
        · simp at h
        · next read =>
          have := members_length read
          split at h
          · simp at h
          · cases h
            omega
    · simp at h

end Schema

end LayoutCompiler.Json
