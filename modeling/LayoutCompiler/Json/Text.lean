import LayoutCompiler.Json.Failure

/-
The text between the quotes of a JSON string: reading it, and passing over it
where its content does not matter. Both start after the opening quote and end
after the closing one; `scanText_length` and `passText_length` say that they move
forward.

A surrogate escape must be followed by its second half when the text is read;
passing over it only asks for four hexadecimal digits. A control character is
refused by both, after it has been taken when the text is read and before it
when it is passed over.
-/

namespace LayoutCompiler.Json

open Text (hexNumber?)

/-- The number spelled by the four hexadecimal digits at the front. -/
def hex4 : List Char → Except Failure (Nat × List Char)
  | a :: b :: c :: d :: rest =>
    match hexNumber? [a, b, c, d] with
    | some n => .ok (n, rest)
    | none => .error (malformed (a :: b :: c :: d :: rest))
  | cs => .error (malformed cs)
where
  /-- Four bytes are taken before they are looked at, if there are four. -/
  malformed (cs : List Char) : Failure :=
    if width cs < 4 then ⟨.endInText, 0⟩ else ⟨.invalidEscape, width cs - 4⟩

def isLeadingSurrogate (n : Nat) : Bool :=
  0xD800 ≤ n && n < 0xDC00

def isTrailingSurrogate (n : Nat) : Bool :=
  0xDC00 ≤ n && n < 0xE000

/-- The code point of a pair of surrogates. -/
def joinSurrogates (high low : Nat) : Nat :=
  0x10000 + (high - 0xD800) * 0x400 + (low - 0xDC00)

/-- The character that a letter after a backslash stands for, the letter `u` apart. -/
def shortEscape? : Char → Option Char
  | '"' => some '"'
  | '\\' => some '\\'
  | '/' => some '/'
  | 'b' => some '\x08'
  | 'f' => some '\x0c'
  | 'n' => some '\n'
  | 'r' => some '\r'
  | 't' => some '\t'
  | _ => none

/-- The second half of a pair of surrogates, which must follow the first half `high`. -/
def secondSurrogate (high : Nat) : List Char → Except Failure (Char × List Char)
  | [] => .error (.before .endInText [])
  | '\\' :: [] => .error (.before .endInText [])
  | '\\' :: 'u' :: rest =>
    match hex4 rest with
    | .error e => .error e
    | .ok (low, r) =>
      if isTrailingSurrogate low then .ok (Char.ofNat (joinSurrogates high low), r)
      else .error (.before .loneSurrogate r)
  | '\\' :: c :: rest => .error (.inside .unfinishedSurrogate (c :: rest))
  | c :: rest => .error (.inside .unfinishedSurrogate (c :: rest))

/-- The character of the escape that follows a backslash. -/
def escape : List Char → Except Failure (Char × List Char)
  | [] => .error (.before .endInText [])
  | 'u' :: rest =>
    match hex4 rest with
    | .error e => .error e
    | .ok (n, r) =>
      if isLeadingSurrogate n then secondSurrogate n r
      else if isTrailingSurrogate n then .error (.before .loneSurrogate r)
      else .ok (Char.ofNat n, r)
  | c :: rest =>
    match shortEscape? c with
    | some d => .ok (d, rest)
    | none => .error (.inside .invalidEscape (c :: rest))

/-- Passes over the escape that follows a backslash. -/
def passEscape : List Char → Except Failure (List Char)
  | [] => .error (.before .endInText [])
  | 'u' :: rest => (hex4 rest).map Prod.snd
  | c :: rest =>
    match shortEscape? c with
    | some _ => .ok rest
    | none => .error (.inside .invalidEscape (c :: rest))

theorem hex4_length {s r : List Char} {n : Nat} (h : hex4 s = .ok (n, r)) :
    r.length < s.length := by
  unfold hex4 at h
  split at h
  · split at h
    · cases h
      simp only [List.length_cons]
      omega
    · simp at h
  · simp at h

theorem secondSurrogate_length {high : Nat} {s r : List Char} {c : Char}
    (h : secondSurrogate high s = .ok (c, r)) : r.length < s.length := by
  unfold secondSurrogate at h
  split at h
  · simp at h
  · simp at h
  · split at h
    · simp at h
    · next hh =>
      split at h
      · simp only [Except.ok.injEq, Prod.mk.injEq] at h
        have := hex4_length hh
        simp only [List.length_cons, ← h.2]
        omega
      · simp at h
  · simp at h
  · simp at h

theorem escape_length {s r : List Char} {c : Char} (h : escape s = .ok (c, r)) :
    r.length < s.length := by
  unfold escape at h
  split at h
  · simp at h
  · split at h
    · simp at h
    · next hh =>
      have := hex4_length hh
      simp only [List.length_cons]
      split at h
      · have := secondSurrogate_length h
        omega
      · split at h
        · simp at h
        · cases h
          omega
  · split at h
    · cases h
      simp
    · simp at h

theorem passEscape_length {s r : List Char} (h : passEscape s = .ok r) :
    r.length < s.length := by
  unfold passEscape at h
  split at h
  · simp at h
  · obtain ⟨⟨_, _⟩, digits, eq⟩ := exists_of_map_eq_ok h
    cases eq
    have := hex4_length digits
    simp only [List.length_cons]
    omega
  · split at h
    · cases h
      simp
    · simp at h

/-- Whether `c` has to be escaped in a JSON string for being a control character. -/
def isControl (c : Char) : Bool :=
  c.toNat < 0x20

/-- Reads characters up to the closing quote; `acc` holds those before them, last one first. -/
def scanText (acc : List Char) (s : List Char) : Except Failure (String × List Char) :=
  match s with
  | [] => .error (.before .endInText [])
  | '"' :: rest => .ok (String.ofList acc.reverse, rest)
  | '\\' :: rest =>
    match h : escape rest with
    | .error e => .error e
    | .ok (c, r) =>
      have := escape_length h
      scanText (c :: acc) r
  | c :: rest =>
    if isControl c then .error (.inside .controlCharacter (c :: rest))
    else scanText (c :: acc) rest
termination_by s.length

/-- Passes over characters up to the closing quote. -/
def passText (s : List Char) : Except Failure (List Char) :=
  match s with
  | [] => .error (.before .endInText [])
  | '"' :: rest => .ok rest
  | '\\' :: rest =>
    match h : passEscape rest with
    | .error e => .error e
    | .ok r =>
      have := passEscape_length h
      passText r
  | c :: rest =>
    if isControl c then .error (.before .controlCharacter (c :: rest))
    else passText rest
termination_by s.length

theorem scanText_length {acc s r : List Char} {t : String} (h : scanText acc s = .ok (t, r)) :
    r.length < s.length := by
  fun_induction scanText acc s with
  | case1 => simp at h
  | case2 =>
    cases h
    simp
  | case3 => simp at h
  | case4 acc rest c r' he shorter ih =>
    have := ih h
    simp only [List.length_cons]
    omega
  | case5 => simp at h
  | case6 acc c rest _ _ _ ih =>
    have := ih h
    simp only [List.length_cons]
    omega

theorem passText_length {s r : List Char} (h : passText s = .ok r) : r.length < s.length := by
  fun_induction passText s with
  | case1 => simp at h
  | case2 =>
    cases h
    simp
  | case3 => simp at h
  | case4 rest r' he shorter ih =>
    have := ih h
    simp only [List.length_cons]
    omega
  | case5 => simp at h
  | case6 c rest _ _ _ ih =>
    have := ih h
    simp only [List.length_cons]
    omega

end LayoutCompiler.Json
