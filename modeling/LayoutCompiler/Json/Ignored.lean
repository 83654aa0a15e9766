import LayoutCompiler.Json.Numeral
import LayoutCompiler.Json.Text

/-
Passing over a JSON value whose content does not matter. The containers that are
open are kept in a list, so nesting has no limit here. Numbers are checked for
their form alone and texts for their escapes alone.

`passValue_length` says that passing over a value moves forward.
-/

namespace LayoutCompiler.Json

/-- Whether `c` is white space between tokens. -/
def isSpace (c : Char) : Bool :=
  c == ' ' || c == '\n' || c == '\t' || c == '\r'

/-- The text from the next token on. -/
def skipSpace (s : List Char) : List Char :=
  s.dropWhile isSpace

theorem skipSpace_length (s : List Char) : (skipSpace s).length ≤ s.length :=
  length_dropWhile_le isSpace s

/-- Reads the letters of a word that is the only one to start so. -/
def word : (letters : List Char) → List Char → Except Failure (List Char)
  | [], s => .ok s
  | _ :: _, [] => .error (.before .endInValue [])
  | l :: ls, c :: s => if c = l then word ls s else .error (.inside .expectedWord (c :: s))

theorem word_length {ls s r : List Char} (h : word ls s = .ok r) : r.length ≤ s.length := by
  induction ls generalizing s with
  | nil =>
    simp only [word, Except.ok.injEq] at h
    simp [h]
  | cons l ls ih =>
    cases s with
    | nil => simp [word] at h
    | cons c s =>
      simp only [word] at h
      split at h
      · have := ih h
        simp only [List.length_cons]
        omega
      · simp at h

/-- The two kinds of containers. -/
inductive Container where
  | list
  | object
  deriving DecidableEq, Repr

namespace Container

/-- The bracket that ends the container. -/
def closing : Container → Char
  | list => ']'
  | object => '\x7d'

/-- The cause if the text ends inside the container. -/
def endInside : Container → Cause
  | list => .endInList
  | object => .endInObject

/-- The cause if neither a comma nor the closing bracket follows an item. -/
def expectedEnd : Container → Cause
  | list => .expectedListEnd
  | object => .expectedObjectEnd

end Container

/-- Passes over a key and the colon after it. -/
def passKey (s : List Char) : Except Failure (List Char) :=
  match skipSpace s with
  | [] => .error (.inside .endInObject [])
  | '"' :: rest =>
    match passText rest with
    | .error e => .error e
    | .ok r =>
      match skipSpace r with
      | [] => .error (.inside .endInObject [])
      | ':' :: t => .ok t
      | c :: t => .error (.inside .expectedColon (c :: t))
  | c :: rest => .error (.inside .keyNotText (c :: rest))

/-- Passes over a value that is no container. -/
def passScalar : List Char → Except Failure (List Char)
  | [] => .error (.inside .endInValue [])
  | 'n' :: r => word ['u', 'l', 'l'] r
  | 't' :: r => word ['r', 'u', 'e'] r
  | 'f' :: r => word ['a', 'l', 's', 'e'] r
  | '"' :: r => passText r
  | c :: r =>
    if c = '-' ∨ Number.isDigit c then passNumber (c :: r)
    else .error (.inside .expectedValue (c :: r))

/-- Passes over the start of a container, after its opening bracket, up to the first value;
`false` if it has none. -/
def passOpening (k : Container) (s : List Char) : Except Failure (Bool × List Char) :=
  match skipSpace s with
  | [] => .error (.inside k.endInside [])
  | c :: r =>
    if c = k.closing then .ok (false, r)
    else match k with
    | .list => .ok (true, c :: r)
    | .object => (passKey (c :: r)).map fun t => (true, t)

/-- Passes from the end of an item to the next value of the container; `false` if the container
ends. -/
def passItemEnd (k : Container) (s : List Char) : Except Failure (Bool × List Char) :=
  match skipSpace s with
  | [] => .error (.inside k.endInside [])
  | c :: r =>
    if c = k.closing then .ok (false, r)
    else if c = ',' then
      match k with
      | .list => .ok (true, r)
      | .object => (passKey r).map fun t => (true, t)
    else .error (.inside k.expectedEnd (c :: r))

/-- The container that a bracket opens. -/
def Container.ofOpening? (c : Char) : Option Container :=
  if c = '[' then some list else if c = '\x7b' then some object else none

theorem passKey_length {s r : List Char} (h : passKey s = .ok r) : r.length < s.length := by
  have spaced := skipSpace_length s
  unfold passKey at h
  split at h
  · simp at h
  · next rest tail =>
    rw [tail] at spaced
    simp only [List.length_cons] at spaced
    split at h
    · simp at h
    · next r' text =>
      have passed := passText_length text
      have spaced' := skipSpace_length r'
      split at h
      · simp at h
      · next colon =>
        rw [colon] at spaced'
        cases h
        simp only [List.length_cons] at spaced'
        omega
      · simp at h
  · simp at h

theorem passScalar_length {s r : List Char} (h : passScalar s = .ok r) :
    r.length < s.length := by
  unfold passScalar at h
  split at h
  · simp at h
  · have := word_length h
    simp only [List.length_cons]
    omega
  · have := word_length h
    simp only [List.length_cons]
    omega
  · have := word_length h
    simp only [List.length_cons]
    omega
  · have := passText_length h
    simp only [List.length_cons]
    omega
  · split at h
    · exact passNumber_length h
    · simp at h

theorem passOpening_length {k : Container} {s r : List Char} {more : Bool}
    (h : passOpening k s = .ok (more, r)) : r.length ≤ s.length := by
  have spaced := skipSpace_length s
  unfold passOpening at h
  split at h
  · simp at h
  · next tail =>
    simp only [tail, List.length_cons] at spaced
    split at h
    · cases h
      omega
    · split at h
      · cases h
        simpa using spaced
      · obtain ⟨_, key, eq⟩ := exists_of_map_eq_ok h
        cases eq
        have := passKey_length key
        simp only [List.length_cons] at this ⊢
        omega

theorem passItemEnd_length {k : Container} {s r : List Char} {more : Bool}
    (h : passItemEnd k s = .ok (more, r)) : r.length < s.length := by
  have spaced := skipSpace_length s
  unfold passItemEnd at h
  split at h
  · simp at h
  · next tail =>
    simp only [tail, List.length_cons] at spaced
    split at h
    · cases h
      omega
    · split at h
      · split at h
        · cases h
          omega
        · obtain ⟨_, key, eq⟩ := exists_of_map_eq_ok h
          cases eq
          have := passKey_length key
          omega
      · simp at h

mutual

/-- Passes over a value and what is left of the containers around it, innermost first. -/
def passWithin (around : List Container) (s : List Char) : Except Failure (List Char) :=
  match tail : skipSpace s with
  | [] => .error (.inside .endInValue [])
  | c :: rest =>
    have spaced : rest.length < s.length := by
      have := skipSpace_length s
      simp only [tail, List.length_cons] at this
      omega
    match Container.ofOpening? c with
    | some k =>
      match h : passOpening k rest with
      | .error e => .error e
      | .ok (false, r) =>
        have := passOpening_length h
        passAround around r
      | .ok (true, r) =>
        have := passOpening_length h
        passWithin (k :: around) r
    | none =>
      match h : passScalar (c :: rest) with
      | .error e => .error e
      | .ok r =>
        have := passScalar_length h
        passAround around r
termination_by s.length
decreasing_by
  · omega
  · omega
  · simp only [List.length_cons] at this
    omega

/-- Passes over what is left of the given containers after an item of the innermost one. -/
def passAround (around : List Container) (s : List Char) : Except Failure (List Char) :=
  match around with
  | [] => .ok s
  | k :: outer =>
    match h : passItemEnd k s with
    | .error e => .error e
    | .ok (false, r) =>
      have := passItemEnd_length h
      passAround outer r
    | .ok (true, r) =>
      have := passItemEnd_length h
      passWithin (k :: outer) r
termination_by s.length

end

/-- Passes over a value. -/
def passValue (s : List Char) : Except Failure (List Char) :=
  passWithin [] s

mutual

theorem passWithin_length {around : List Container} {s r : List Char}
    (h : passWithin around s = .ok r) : r.length < s.length := by
  unfold passWithin at h
  split at h
  · simp at h
  · next c rest tail =>
    have spaced : rest.length < s.length := by
      have := skipSpace_length s
      simp only [tail, List.length_cons] at this
      omega
    split at h
    · split at h
      · simp at h
      · next r' opened =>
        have moved := passOpening_length opened
        have := passAround_length h
        omega
      · next r' opened =>
        have moved := passOpening_length opened
        have := passWithin_length h
        omega
    · split at h
      · simp at h
      · next r' scalar =>
        have moved := passScalar_length scalar
        simp only [List.length_cons] at moved
        have := passAround_length h
        omega
termination_by s.length
decreasing_by
  all_goals simp only [List.length_cons] at *
  all_goals omega

theorem passAround_length {around : List Container} {s r : List Char}
    (h : passAround around s = .ok r) : r.length ≤ s.length := by
  unfold passAround at h
  split at h
  · cases h
    simp
  · split at h
    · simp at h
    · next r' item =>
      have moved := passItemEnd_length item
      have := passAround_length h
      omega
    · next r' item =>
      have moved := passItemEnd_length item
      have := passWithin_length h
      omega
termination_by s.length

end

theorem passValue_length {s r : List Char} (h : passValue s = .ok r) : r.length < s.length :=
  passWithin_length h

end LayoutCompiler.Json
