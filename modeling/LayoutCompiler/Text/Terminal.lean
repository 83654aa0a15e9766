/-
What is left of a text when escape sequences and controls are taken out of it, so
that it can be written where no terminal interprets them. Outside of sequences
every character is left but the controls, and of these tab, line feed, form feed
and carriage return are left as well. An escape character begins a sequence: a
short one of intermediates and a final character, a control sequence, an operating
system command or a string; cancel, substitute and another escape character end
whatever has begun.
-/

namespace LayoutCompiler.Text.Terminal

/-! ### Characters -/

/-- The controls that lay out a text. -/
def isLayout (c : Char) : Bool :=
  c == '\t' || c == '\n' || c == '\x0c' || c == '\r'

/-- Whether `c` is left outside of sequences. -/
def isShown (c : Char) : Bool :=
  isLayout c || 0x20 ≤ c.toNat && c.toNat != 0x7F

def isIntermediate (c : Char) : Bool :=
  0x20 ≤ c.toNat && c.toNat ≤ 0x2F

def isParameter (c : Char) : Bool :=
  0x30 ≤ c.toNat && c.toNat ≤ 0x3F

/-- The parameters that are reserved for private use. -/
def isPrivate (c : Char) : Bool :=
  0x3C ≤ c.toNat && c.toNat ≤ 0x3F

def isFinal (c : Char) : Bool :=
  0x40 ≤ c.toNat && c.toNat ≤ 0x7E

/-- Whether the byte that ends a string is among the UTF-8 bytes of `c`. -/
def hasTerminator (c : Char) : Bool :=
  (String.utf8EncodeChar c).contains 0x9C

/-! ### Sequences -/

/-- A place in a text with respect to escape sequences. -/
inductive Place where
  /-- Outside of sequences. -/
  | ground
  /-- Just after an escape character. -/
  | escape
  /-- In a short sequence, after an intermediate. -/
  | intermediate
  /-- In a control sequence. -/
  | control
  /-- In an operating system command. -/
  | command
  /-- At the start of a device control string. -/
  | device
  /-- After a parameter of a device control string. -/
  | deviceParameter
  /-- After an intermediate of a device control string. -/
  | deviceIntermediate
  /-- In the body of a string. -/
  | string
  deriving DecidableEq, Repr

namespace Place

/-- The place after a character that is not left. -/
def step (p : Place) (c : Char) : Place :=
  if c = '\x1b' then escape
  else if c = '\x18' || c = '\x1a' then ground
  else
    match p with
    | ground => ground
    | escape =>
      if isIntermediate c then intermediate
      else if c = '[' then control
      else if c = ']' then command
      else if c = 'P' then device
      else if c = 'X' || c = '^' || c = '_' then string
      else if isParameter c || isFinal c then ground
      else escape
    | intermediate => if isParameter c || isFinal c then ground else intermediate
    | control => if isFinal c then ground else control
    | command => if c = '\x07' then ground else command
    | device =>
      if isIntermediate c then deviceIntermediate
      else if isParameter c then deviceParameter
      else if isFinal c then string
      else device
    | deviceParameter =>
      if isIntermediate c then deviceIntermediate
      else if isPrivate c || isFinal c then string
      else deviceParameter
    | deviceIntermediate => if isParameter c || isFinal c then string else deviceIntermediate
    | string => if hasTerminator c then ground else string

/-- Whether `c` is left at a place. Layout passes through the sequences that are not strings. -/
def leaves (p : Place) (c : Char) : Bool :=
  match p with
  | ground => isShown c
  | escape | intermediate | control => isLayout c
  | command | device | deviceParameter | deviceIntermediate | string => false

end Place

/-- The characters that are left from a place on. A layout character suspends the sequence that
it stands in: what follows is left as outside of sequences, until a control takes the sequence up
again or a character beyond ASCII ends it. -/
def leftFrom (suspended : Bool) (p : Place) : List Char → List Char
  | [] => []
  | c :: cs =>
    if p.leaves c || suspended && isShown c then
      c :: leftFrom true (if c.toNat < 0x80 then p else .ground) cs
    else leftFrom false (p.step c) cs

/-- A text without its escape sequences and controls. -/
def withoutSequences (s : String) : String :=
  String.ofList (leftFrom false .ground s.toList)

end LayoutCompiler.Text.Terminal
