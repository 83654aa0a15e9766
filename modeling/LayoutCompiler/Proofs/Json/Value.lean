import LayoutCompiler.Json.Ignored
import LayoutCompiler.Json.Printer
import LayoutCompiler.Proofs.Json.ReadBack
import Mathlib.Data.List.TakeWhile

/-
JSON values as they are spelled. A value keeps what its author chose: the escapes of its
texts, the forms of its numbers, and the order of the members of its objects, where keys
may be repeated. Its tokens are what it is written with (`Value.tokens`); white space
stands between them as one likes (`Spaced`). Every value of the grammar is one of these, also
numbers that are out of range and texts with half of a pair of surrogates.
-/

namespace LayoutCompiler.Json

open Number (isDigit)
open Text (hexNumber?)

/-- A character of a text, as it is spelled between the quotes. -/
inductive Letter where
  /-- A character that stands for itself. -/
  | plain (c : Char) (quote : c ≠ '"') (slash : c ≠ '\\') (control : isControl c = false)
  /-- A backslash and the letter `c`, for the character `d`. -/
  | short (c d : Char) (escape : shortEscape? c = some d)
  /-- A backslash, the letter `u` and four hexadecimal digits. -/
  | code (digits : List Char) (unit : Nat) (four : digits.length = 4)
    (number : hexNumber? digits = some unit)

namespace Letter

def spelling : Letter → List Char
  | plain c _ _ _ => [c]
  | short c _ _ => ['\\', c]
  | code digits _ _ _ => '\\' :: 'u' :: digits

/-- The characters that letters stand for; `none` if half of a pair of surrogates is alone. -/
def unescape : List Letter → Option (List Char)
  | [] => some []
  | plain c _ _ _ :: ls => (unescape ls).map (c :: ·)
  | short _ d _ :: ls => (unescape ls).map (d :: ·)
  | code _ n _ _ :: ls =>
    if isLeadingSurrogate n then
      match ls with
      | code _ m _ _ :: ls =>
        if isTrailingSurrogate m then
          (unescape ls).map (Char.ofNat (joinSurrogates n m) :: ·)
        else none
      | _ => none
    else if isTrailingSurrogate n then none
    else (unescape ls).map (Char.ofNat n :: ·)

end Letter

/-- One or more decimal digits. -/
structure Digits where
  chars : List Char
  nonempty : chars ≠ []
  decimal : chars.all isDigit = true

theorem Digits.isDigit_of_mem (d : Digits) : ∀ c ∈ d.chars, isDigit c = true :=
  List.all_eq_true.mp d.decimal

/-- The exponent of a number. -/
structure Exponent where
  letter : Char
  letter_eq : letter = 'e' ∨ letter = 'E'
  sign : List Char
  sign_eq : sign = [] ∨ sign = ['+'] ∨ sign = ['-']
  digits : Digits

/-- An exponent as it stands behind the digits of a number; nothing if there is none. -/
def exponentSpelling : Option Exponent → List Char
  | none => []
  | some e => e.letter :: (e.sign ++ e.digits.chars)

/-- A number: a sign, digits, and perhaps a point with digits and an exponent. -/
structure NumberForm where
  negative : Bool
  whole : Digits
  /-- Zero is the only number that starts with a zero. -/
  zero : whole.chars.head? = some '0' → whole.chars = ['0']
  fraction : Option Digits
  exponent : Option Exponent

namespace NumberForm

/-- What follows the digits before the point. -/
def tail (n : NumberForm) : List Char :=
  match n.fraction with
  | none => exponentSpelling n.exponent
  | some digits => '.' :: (digits.chars ++ exponentSpelling n.exponent)

def spelling (n : NumberForm) : List Char :=
  (if n.negative then ['-'] else []) ++ (n.whole.chars ++ n.tail)

end NumberForm

/-- A JSON value. -/
inductive Value where
  | null
  | boolean (b : Bool)
  | number (n : NumberForm)
  | text (letters : List Letter)
  | list (items : List Value)
  | object (members : List (List Letter × Value))

def Value.isNull : Value → Bool
  | .null => true
  | _ => false

theorem Value.eq_null_of_isNull {v : Value} (h : v.isNull = true) : v = .null := by
  cases v with
  | null => rfl
  | _ => cases h

/-- A member of an object: the letters of its key, and its value. -/
abbrev Member : Type := List Letter × Value

/-- The key of a member; half of a pair of surrogates is in no key. -/
def Member.key? (m : Member) : Option String :=
  (Letter.unescape m.1).map String.ofList

/-! ### Tokens -/

/-- A text between its quotes. -/
def quoted (letters : List Letter) : List Char :=
  '"' :: (letters.flatMap Letter.spelling ++ ['"'])

/-- The comma before an item that is not the first one. -/
def comma (first : Bool) : List (List Char) :=
  if first then [] else [[',']]

mutual

/-- The tokens of a value, in order. -/
def Value.tokens : Value → List (List Char)
  | .null => [['n', 'u', 'l', 'l']]
  | .boolean b => [printBool b]
  | .number n => [n.spelling]
  | .text letters => [quoted letters]
  | .list items => ['['] :: itemTokens true items
  | .object members => ['\x7b'] :: memberTokens true members

/-- The tokens of the items of a list from one on, and of its end. -/
def itemTokens (first : Bool) : List Value → List (List Char)
  | [] => [[']']]
  | v :: vs => comma first ++ (v.tokens ++ itemTokens false vs)

/-- The tokens of the members of an object from one on, and of its end. -/
def memberTokens (first : Bool) : List (List Letter × Value) → List (List Char)
  | [] => [['\x7d']]
  | m :: ms => comma first ++ (keyedTokens m ++ memberTokens false ms)

/-- The tokens of a member: its key, the colon and its value. -/
def keyedTokens : List Letter × Value → List (List Char)
  | (key, v) => quoted key :: [':'] :: v.tokens

end

/-- The text `s` is made of the tokens, with white space before each of them and at the end. -/
def Spaced : (tokens : List (List Char)) → (s : List Char) → Prop
  | [], s => ∀ c ∈ s, isSpace c = true
  | t :: ts, s => ∃ space r, s = space ++ (t ++ r) ∧ (∀ c ∈ space, isSpace c = true) ∧ Spaced ts r

/-- The text is a spelling of the value. -/
def Value.Spells (v : Value) (text : String) : Prop :=
  Spaced v.tokens text.toList

/-- What holds of every value if it holds of a list or an object whenever it holds of the values
inside. -/
theorem Value.inductionOn {P : Value → Prop} (null : P .null) (boolean : ∀ b, P (.boolean b))
    (number : ∀ n, P (.number n)) (text : ∀ letters, P (.text letters))
    (list : ∀ items, (∀ v ∈ items, P v) → P (.list items))
    (object : ∀ members : List Member, (∀ m ∈ members, P m.2) → P (.object members))
    (v : Value) : P v :=
  @Value.rec P (fun items => ∀ v ∈ items, P v) (fun members => ∀ m ∈ members, P m.2)
    (fun m => P m.2) null boolean number text list object (by simp)
    (fun _ _ hv hvs => List.forall_mem_cons.mpr ⟨hv, hvs⟩) (by simp)
    (fun _ _ hm hms => List.forall_mem_cons.mpr ⟨hm, hms⟩) (fun _ _ hv => hv) v

/-- Letters for the characters of a text that need no escape; the others are left out. -/
def Letter.plains (s : String) : List Letter :=
  s.toList.filterMap fun c =>
    if h : c ≠ '"' ∧ c ≠ '\\' ∧ isControl c = false then some (.plain c h.1 h.2.1 h.2.2) else none

/-- A check that a text is made of tokens. -/
def spaced? : (tokens : List (List Char)) → (s : List Char) → Bool
  | [], s => s.all isSpace
  | t :: ts, s => t.isPrefixOf (skipSpace s) && spaced? ts ((skipSpace s).drop t.length)

theorem Spaced.of_skipSpace {t r s : List Char} {ts : List (List Char)} (h : skipSpace s = t ++ r)
    (hr : Spaced ts r) : Spaced (t :: ts) s := by
  refine ⟨s.takeWhile isSpace, r, ?_, fun c hc => List.mem_takeWhile_imp hc, hr⟩
  rw [← h]
  exact List.takeWhile_append_dropWhile.symm

theorem spaced_of_spaced? {ts : List (List Char)} {s : List Char} (h : spaced? ts s = true) :
    Spaced ts s := by
  induction ts generalizing s with
  | nil => simpa [Spaced, spaced?] using h
  | cons t ts ih =>
    simp only [spaced?, Bool.and_eq_true, List.isPrefixOf_iff_prefix] at h
    obtain ⟨⟨r, hr⟩, hrest⟩ := h
    rw [← hr, List.drop_left] at hrest
    exact .of_skipSpace hr.symm (ih hrest)

/-! ### What comes next -/

theorem skipSpace_append {space : List Char} (h : ∀ c ∈ space, isSpace c = true) (s : List Char) :
    skipSpace (space ++ s) = skipSpace s :=
  List.dropWhile_append_of_pos h

theorem Spaced.skipSpace_eq_nil {s : List Char} (h : Spaced [] s) : skipSpace s = [] :=
  List.dropWhile_eq_nil_iff.mpr h

/-- The first token comes next, and the others are behind it. -/
theorem Spaced.next {c : Char} {cs s : List Char} {ts : List (List Char)}
    (h : Spaced ((c :: cs) :: ts) s) (hc : isSpace c = false) :
    ∃ r, skipSpace s = c :: (cs ++ r) ∧ Spaced ts r := by
  obtain ⟨space, r, rfl, hspace, hr⟩ := h
  refine ⟨r, ?_, hr⟩
  rw [skipSpace_append hspace]
  exact List.dropWhile_cons_of_neg (by simp [hc])

theorem Spaced.after {c : Char} {s : List Char} {ts : List (List Char)} (h : Spaced ([c] :: ts) s)
    (hc : isSpace c = false) : ∃ r, skipSpace s = c :: r ∧ Spaced ts r :=
  h.next hc

/-- The white space before the first token does not matter. -/
theorem Spaced.here {c : Char} {cs s : List Char} {ts : List (List Char)}
    (h : Spaced ((c :: cs) :: ts) s) (hc : isSpace c = false) :
    ∃ r, skipSpace s = c :: r ∧ Spaced ((c :: cs) :: ts) (c :: r) := by
  obtain ⟨r, hr, hts⟩ := h.next hc
  exact ⟨cs ++ r, hr, [], r, rfl, by simp, hts⟩

/-- Nothing, or what may stand behind a value. -/
def Follows (tokens : List (List Char)) : Prop :=
  ∀ t ∈ tokens.head?, t = [','] ∨ t = [']'] ∨ t = ['\x7d']

/-- Nothing, white space, or what may stand behind a value. -/
def Stops (s : List Char) : Prop :=
  ∀ c ∈ s.head?, isSpace c = true ∨ c = ',' ∨ c = ']' ∨ c = '\x7d'

theorem follows_itemTokens (items : List Value) (ts : List (List Char)) :
    Follows (itemTokens false items ++ ts) := by
  cases items <;> simp [Follows, itemTokens, comma]

theorem follows_memberTokens (members : List Member) (ts : List (List Char)) :
    Follows (memberTokens false members ++ ts) := by
  cases members <;> simp [Follows, memberTokens, comma]

theorem Spaced.stops {s : List Char} {ts : List (List Char)} (h : Spaced ts s) (hts : Follows ts) :
    Stops s := by
  intro c hc
  cases ts with
  | nil => exact .inl (h c (List.mem_of_mem_head? hc))
  | cons t ts =>
    obtain ⟨space, r, rfl, hspace, -⟩ := h
    cases space with
    | nil => rcases hts t rfl with rfl | rfl | rfl <;> cases hc <;> simp
    | cons b space =>
      obtain rfl : b = c := by simpa using hc
      exact .inl (hspace b List.mem_cons_self)

/-- The character that a value starts with tells what kind of value it is. -/
inductive Value.Starts : Value → Char → Prop
  | null : Starts .null 'n'
  | isTrue : Starts (.boolean true) 't'
  | isFalse : Starts (.boolean false) 'f'
  | number {n : NumberForm} {c : Char} (h : c = '-' ∨ isDigit c = true) : Starts (.number n) c
  | text {letters : List Letter} : Starts (.text letters) '"'
  | list {items : List Value} : Starts (.list items) '['
  | object {members : List Member} : Starts (.object members) '\x7b'

theorem NumberForm.spelling_eq_cons (n : NumberForm) :
    ∃ c cs, n.spelling = c :: cs ∧ (c = '-' ∨ isDigit c = true) := by
  obtain ⟨c, cs, hcs⟩ := List.exists_cons_of_ne_nil n.whole.nonempty
  have hc : isDigit c = true := n.whole.isDigit_of_mem c (by simp [hcs])
  unfold NumberForm.spelling
  cases n.negative with
  | true => exact ⟨'-', _, rfl, .inl rfl⟩
  | false => exact ⟨c, cs ++ n.tail, by simp [hcs], .inr hc⟩

/-- What starts a number starts nothing else. -/
theorem ne_of_number {c d : Char} (h : c = '-' ∨ isDigit c = true)
    (hd : ¬ (d = '-' ∨ isDigit d = true)) : c ≠ d := by
  rintro rfl
  exact hd h

theorem Value.starts (v : Value) : ∃ c cs ts, v.tokens = (c :: cs) :: ts ∧ v.Starts c := by
  cases v with
  | null => exact ⟨_, _, _, rfl, .null⟩
  | boolean b =>
    cases b with
    | false => exact ⟨_, _, _, rfl, .isFalse⟩
    | true => exact ⟨_, _, _, rfl, .isTrue⟩
  | number n =>
    obtain ⟨c, cs, hcs, hc⟩ := n.spelling_eq_cons
    exact ⟨c, cs, [], by rw [tokens, hcs], .number hc⟩
  | text => exact ⟨_, _, _, rfl, .text⟩
  | list => exact ⟨_, _, _, rfl, .list⟩
  | object => exact ⟨_, _, _, rfl, .object⟩

theorem Value.Starts.isSpace_eq_false {v : Value} {c : Char} (h : v.Starts c) :
    isSpace c = false := by
  cases h with
  | number h => exact isSpace_of_number h
  | _ => rfl

/-- A value comes next with its first character. -/
theorem Spaced.value {v : Value} {s : List Char} {ts : List (List Char)}
    (h : Spaced (v.tokens ++ ts) s) :
    ∃ c r, skipSpace s = c :: r ∧ v.Starts c ∧ Spaced (v.tokens ++ ts) (c :: r) := by
  obtain ⟨c, cs, ts', hv, hc⟩ := v.starts
  rw [hv] at h ⊢
  obtain ⟨r, hr, hs⟩ := h.here hc.isSpace_eq_false
  exact ⟨c, r, hr, hc, hs⟩

/-- No value starts with a closing bracket or a comma. -/
theorem Value.Starts.ne {v : Value} {c d : Char} (h : v.Starts c)
    (hd : d ∈ [',', ']', '\x7d']) : c ≠ d := by
  simp only [List.mem_cons, List.not_mem_nil, or_false] at hd
  cases h with
  | number h => rcases hd with rfl | rfl | rfl <;> exact ne_of_number h (by decide)
  | _ => rcases hd with rfl | rfl | rfl <;> decide

end LayoutCompiler.Json
