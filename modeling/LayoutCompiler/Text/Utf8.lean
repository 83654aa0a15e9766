/-
UTF-8 as lists of bytes. `encode` writes characters; `decode` reads bytes and,
where they are no UTF-8, tells where the first offending sequence starts and
how many of its bytes were read before it went wrong, or that the bytes stop
inside a character.
-/

namespace LayoutCompiler.Text.Utf8

/-- Why bytes are not UTF-8. Positions count bytes from the start of the text. -/
inductive Fault where
  /-- The `size` bytes from `start` on begin no character together with the byte after them. -/
  | invalid (start size : Nat)
  /-- The bytes end inside the character that begins at `start`. -/
  | incomplete (start : Nat)
  deriving DecidableEq, Repr

/-- The bytes of `cs`. -/
def encode (cs : List Char) : List UInt8 :=
  cs.flatMap String.utf8EncodeChar

/-- What the first byte of a character of several bytes fixes: the number of bytes that follow,
the range of the first of them, and the value that the first byte contributes. -/
structure Lead where
  following : Nat
  low : UInt8
  high : UInt8
  value : Nat
  deriving DecidableEq, Repr

/-- The role of `b` as the first byte of a character of several bytes. The narrowed ranges keep
out overlong forms, surrogates and numbers beyond the last code point. -/
def Lead.of? (b : UInt8) : Option Lead :=
  if 0xC2 ≤ b ∧ b ≤ 0xDF then some ⟨1, 0x80, 0xBF, b.toNat - 0xC0⟩
  else if b = 0xE0 then some ⟨2, 0xA0, 0xBF, 0⟩
  else if b = 0xED then some ⟨2, 0x80, 0x9F, 0x0D⟩
  else if 0xE1 ≤ b ∧ b ≤ 0xEF then some ⟨2, 0x80, 0xBF, b.toNat - 0xE0⟩
  else if b = 0xF0 then some ⟨3, 0x90, 0xBF, 0⟩
  else if 0xF1 ≤ b ∧ b ≤ 0xF3 then some ⟨3, 0x80, 0xBF, b.toNat - 0xF0⟩
  else if b = 0xF4 then some ⟨3, 0x80, 0x8F, 4⟩
  else none

/-- Whether `b` continues a character. -/
def isContinuation (b : UInt8) : Bool :=
  0x80 ≤ b && b ≤ 0xBF

/-- The value of a character so far, extended by the six bits of a continuation byte. -/
def extend (value : Nat) (b : UInt8) : Nat :=
  value * 0x40 + (b.toNat - 0x80)

/-- Decodes the bytes that begin at byte number `start`; `acc` holds the characters before them,
last one first. -/
def decodeFrom (acc : List Char) (start : Nat) : List UInt8 → Except Fault (List Char)
  | [] => .ok acc.reverse
  | b :: r =>
    if b < 0x80 then decodeFrom (Char.ofNat b.toNat :: acc) (start + 1) r
    else match Lead.of? b with
    | none => .error (.invalid start 1)
    | some lead =>
      match r with
      | [] => .error (.incomplete start)
      | b1 :: r1 =>
        let v1 := extend lead.value b1
        if ¬(lead.low ≤ b1 ∧ b1 ≤ lead.high) then .error (.invalid start 1)
        else if lead.following = 1 then decodeFrom (Char.ofNat v1 :: acc) (start + 2) r1
        else match r1 with
        | [] => .error (.incomplete start)
        | b2 :: r2 =>
          let v2 := extend v1 b2
          if ¬isContinuation b2 then .error (.invalid start 2)
          else if lead.following = 2 then decodeFrom (Char.ofNat v2 :: acc) (start + 3) r2
          else match r2 with
          | [] => .error (.incomplete start)
          | b3 :: r3 =>
            if ¬isContinuation b3 then .error (.invalid start 3)
            else decodeFrom (Char.ofNat (extend v2 b3) :: acc) (start + 4) r3

/-- The characters that `bs` encodes. -/
def decode (bs : List UInt8) : Except Fault (List Char) :=
  decodeFrom [] 0 bs

end LayoutCompiler.Text.Utf8
