import LayoutCompiler.Document.Basic
import LayoutCompiler.Text.Utf8

/-
Documents as bytes. After four bytes of magic come the header, the texts and the
operations: integers of fixed width, least significant byte first, lists and
texts after their length in eight bytes, alternatives after their index in four.
Decoding takes the document from the front of the bytes and ignores what follows.

An index that stands for no alternative is refused, except that an alignment is
then read as the center.
-/

namespace LayoutCompiler.Document

open Number (Single)

abbrev Bytes := List UInt8

/-- The first bytes of every document. -/
def magic : Bytes := [0x52, 0x43, 0x4C, 0x44]

/-- The `width` bytes of `n`, least significant first. -/
def littleEndian : (width : Nat) → (n : Nat) → Bytes
  | 0, _ => []
  | w + 1, n => UInt8.ofNat (n % 256) :: littleEndian w (n / 256)

/-- The number with the given bytes, least significant first. -/
def ofLittleEndian : Bytes → Nat
  | [] => 0
  | b :: bs => b.toNat + 256 * ofLittleEndian bs

/-! ### Encoding -/

def encodeWord (n : UInt32) : Bytes :=
  littleEndian 4 n.toNat

/-- A length, or a number of items. -/
def encodeLength (n : Nat) : Bytes :=
  littleEndian 8 n

/-- The index of an alternative. -/
def encodeIndex (n : Nat) : Bytes :=
  littleEndian 4 n

def encodeList {α : Type} (encode : α → Bytes) (l : List α) : Bytes :=
  encodeLength l.length ++ l.flatMap encode

def encodeText (s : String) : Bytes :=
  let bytes := Text.Utf8.encode s.toList
  encodeLength bytes.length ++ bytes

def encodeSingle (x : Single) : Bytes :=
  encodeWord x.bits

def encodeColor (c : Color) : Bytes :=
  encodeWord c.argb

def encodeAlignment : Alignment → Bytes
  | .leading => encodeIndex 0
  | .trailing => encodeIndex 1
  | .center => encodeIndex 2

def encodeArrangement : Arrangement → Bytes
  | .leading => encodeIndex 0
  | .center => encodeIndex 1
  | .trailing => encodeIndex 2
  | .spaceEvenly => encodeIndex 3

def encodeOutline : Outline → Bytes
  | .rectangle => encodeIndex 0
  | .roundedRect radius => encodeIndex 1 ++ encodeSingle radius

def encodeModifier : Modifier → Bytes
  | .fillMaxSize => encodeIndex 0
  | .fillMaxWidth => encodeIndex 1
  | .background color => encodeIndex 2 ++ encodeColor color
  | .verticalScroll => encodeIndex 3
  | .padding left top right bottom =>
    encodeIndex 4 ++ encodeSingle left ++ encodeSingle top ++ encodeSingle right ++
      encodeSingle bottom
  | .height length => encodeIndex 5 ++ encodeSingle length
  | .clip outline => encodeIndex 6 ++ encodeOutline outline
  | .border width color outline =>
    encodeIndex 7 ++ encodeSingle width ++ encodeColor color ++ encodeOutline outline
  | .onClick action =>
    encodeIndex 8 ++ encodeWord action.actionId.toUInt32 ++ encodeWord action.name

def encodeModifiers (l : List Modifier) : Bytes :=
  encodeList encodeModifier l

def encodeTextAlign : TextAlign → Bytes
  | .leading => encodeIndex 0
  | .center => encodeIndex 1

def encodeOperation : Operation → Bytes
  | .rootStart => encodeIndex 0
  | .rootEnd => encodeIndex 1
  | .columnStart modifiers horizontal vertical =>
    encodeIndex 2 ++ encodeModifiers modifiers ++ encodeAlignment horizontal ++
      encodeArrangement vertical
  | .rowStart modifiers horizontal vertical =>
    encodeIndex 3 ++ encodeModifiers modifiers ++ encodeArrangement horizontal ++
      encodeAlignment vertical
  | .boxStart modifiers horizontal vertical =>
    encodeIndex 4 ++ encodeModifiers modifiers ++ encodeAlignment horizontal ++
      encodeAlignment vertical
  | .containerEnd => encodeIndex 5
  | .text run =>
    encodeIndex 6 ++ encodeModifiers run.modifiers ++ encodeWord run.text ++
      encodeColor run.color ++ encodeSingle run.fontSize ++ encodeSingle run.fontWeight ++
      encodeTextAlign run.align

def encodeHeader (h : Header) : Bytes :=
  littleEndian 2 h.version.toNat ++ encodeWord h.width ++ encodeWord h.height ++
    encodeSingle h.density

/-- The bytes of a document. -/
def encode (d : Document) : Bytes :=
  magic ++ encodeHeader d.header ++ encodeList encodeText d.texts ++
    encodeList encodeOperation d.operations

/-! ### Decoding -/

/-- Why bytes are no document. -/
inductive DecodeError where
  | badMagic
  /-- The bytes end inside a number. -/
  | endInNumber
  /-- The bytes end inside a text. -/
  | endInText
  /-- The index of an alternative is not below `count`. -/
  | unknownIndex (index count : Nat)
  | invalidText (fault : Text.Utf8.Fault)
  deriving DecidableEq, Repr

/-- The wording of an error. -/
def DecodeError.message : DecodeError → String
  | badMagic => "Not a layout document (bad magic bytes)"
  | endInNumber => "Encoding error: io error: unexpected end of file"
  | endInText => "Encoding error: io error: "
  | unknownIndex index count =>
    "Encoding error: invalid value: integer `" ++ toString index ++
      "`, expected variant index 0 <= i < " ++ toString count
  | invalidText (.invalid start size) =>
    "Encoding error: string is not valid utf8: invalid utf-8 sequence of " ++ toString size ++
      " bytes from index " ++ toString start
  | invalidText (.incomplete start) =>
    "Encoding error: string is not valid utf8: incomplete utf-8 byte sequence from index " ++
      toString start

/-- Takes a value from the front of bytes. -/
abbrev Decoder := StateT Bytes (Except DecodeError)

/-- The next `n` bytes; `short` is the error if there are fewer. -/
def takeBytes (short : DecodeError) (n : Nat) : Decoder Bytes := fun bytes =>
  let front := bytes.take n
  if front.length < n then .error short else .ok (front, bytes.drop n)

def decodeNumber (width : Nat) : Decoder Nat := do
  let bytes ← takeBytes .endInNumber width
  return ofLittleEndian bytes

def decodeWord : Decoder UInt32 := do
  let n ← decodeNumber 4
  return UInt32.ofNat n

def decodeLength : Decoder Nat :=
  decodeNumber 8

def decodeIndex : Decoder Nat :=
  decodeNumber 4

/-- `n` items, one after another. -/
def decodeItems {α : Type} (decode : Decoder α) : (n : Nat) → Decoder (List α)
  | 0 => return []
  | n + 1 => do
    let a ← decode
    let l ← decodeItems decode n
    return a :: l

def decodeList {α : Type} (decode : Decoder α) : Decoder (List α) := do
  let n ← decodeLength
  decodeItems decode n

def decodeText : Decoder String := do
  let n ← decodeLength
  let bytes ← takeBytes .endInText n
  match Text.Utf8.decode bytes with
  | .ok cs => return String.ofList cs
  | .error fault => throw (.invalidText fault)

def decodeSingle : Decoder Single := do
  let bits ← decodeWord
  return ⟨bits⟩

def decodeColor : Decoder Color := do
  let argb ← decodeWord
  return ⟨argb⟩

def decodeAlignment : Decoder Alignment := do
  let index ← decodeIndex
  return match index with
    | 0 => .leading
    | 1 => .trailing
    | _ => .center

def decodeArrangement : Decoder Arrangement := do
  match ← decodeIndex with
  | 0 => return .leading
  | 1 => return .center
  | 2 => return .trailing
  | 3 => return .spaceEvenly
  | index => throw (.unknownIndex index 4)

def decodeOutline : Decoder Outline := do
  match ← decodeIndex with
  | 0 => return .rectangle
  | 1 => return .roundedRect (← decodeSingle)
  | index => throw (.unknownIndex index 2)

def decodePadding : Decoder Modifier := do
  let left ← decodeSingle
  let top ← decodeSingle
  let right ← decodeSingle
  let bottom ← decodeSingle
  return .padding left top right bottom

def decodeBorder : Decoder Modifier := do
  let width ← decodeSingle
  let color ← decodeColor
  let outline ← decodeOutline
  return .border width color outline

def decodeOnClick : Decoder Modifier := do
  let actionId ← decodeWord
  let name ← decodeWord
  return .onClick ⟨actionId.toInt32, name⟩

def decodeModifier : Decoder Modifier := do
  match ← decodeIndex with
  | 0 => return .fillMaxSize
  | 1 => return .fillMaxWidth
  | 2 => return .background (← decodeColor)
  | 3 => return .verticalScroll
  | 4 => decodePadding
  | 5 => return .height (← decodeSingle)
  | 6 => return .clip (← decodeOutline)
  | 7 => decodeBorder
  | 8 => decodeOnClick
  | index => throw (.unknownIndex index 9)

def decodeModifiers : Decoder (List Modifier) :=
  decodeList decodeModifier

def decodeTextAlign : Decoder TextAlign := do
  match ← decodeIndex with
  | 0 => return .leading
  | 1 => return .center
  | index => throw (.unknownIndex index 2)

def decodeColumnStart : Decoder Operation := do
  let modifiers ← decodeModifiers
  let horizontal ← decodeAlignment
  let vertical ← decodeArrangement
  return .columnStart modifiers horizontal vertical

def decodeRowStart : Decoder Operation := do
  let modifiers ← decodeModifiers
  let horizontal ← decodeArrangement
  let vertical ← decodeAlignment
  return .rowStart modifiers horizontal vertical

def decodeBoxStart : Decoder Operation := do
  let modifiers ← decodeModifiers
  let horizontal ← decodeAlignment
  let vertical ← decodeAlignment
  return .boxStart modifiers horizontal vertical

def decodeTextRun : Decoder Operation := do
  let modifiers ← decodeModifiers
  let text ← decodeWord
  let color ← decodeColor
  let fontSize ← decodeSingle
  let fontWeight ← decodeSingle
  let align ← decodeTextAlign
  return .text ⟨modifiers, text, color, fontSize, fontWeight, align⟩

def decodeOperation : Decoder Operation := do
  match ← decodeIndex with
  | 0 => return .rootStart
  | 1 => return .rootEnd
  | 2 => decodeColumnStart
  | 3 => decodeRowStart
  | 4 => decodeBoxStart
  | 5 => return .containerEnd
  | 6 => decodeTextRun
  | index => throw (.unknownIndex index 7)

def decodeHeader : Decoder Header := do
  let version ← decodeNumber 2
  let width ← decodeWord
  let height ← decodeWord
  let density ← decodeSingle
  return ⟨UInt16.ofNat version, width, height, density⟩

/-- Decodes what follows the magic. -/
def decodeBody : Decoder Document := do
  let header ← decodeHeader
  let texts ← decodeList decodeText
  let operations ← decodeList decodeOperation
  return ⟨header, texts, operations⟩

/-- The document at the front of `bytes`. -/
def decode (bytes : Bytes) : Except DecodeError Document :=
  if bytes.take magic.length = magic then
    (decodeBody (bytes.drop magic.length)).map Prod.fst
  else .error .badMagic

end LayoutCompiler.Document
