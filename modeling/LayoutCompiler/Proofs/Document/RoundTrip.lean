import LayoutCompiler.Document.Codec
import LayoutCompiler.Proofs.Text.Utf8
import Mathlib.Algebra.Group.Nat.Defs

/-
Documents read back from their bytes. A decoder `Reads` bytes as a value if it
takes exactly these bytes off the front of whatever follows them; decoders that
run one after another read what the encoders wrote one after another. From that
every component is read as it was written, and with it the whole document,
whatever bytes come after it (`decode_encode_append`). So no two documents have
the same bytes, and the bytes of one are no beginning of the bytes of another.
-/

namespace LayoutCompiler.Document

open Number (Single)

/-! ### Little-endian numbers -/

theorem length_littleEndian (width n : Nat) : (littleEndian width n).length = width := by
  induction width generalizing n with
  | zero => rfl
  | succ w ih => rw [littleEndian, List.length_cons, ih]

/-- The bytes of a number stand for it, as far as its width goes. -/
theorem ofLittleEndian_littleEndian (width n : Nat) :
    ofLittleEndian (littleEndian width n) = n % 256 ^ width := by
  induction width generalizing n with
  | zero => rw [littleEndian, ofLittleEndian, Nat.pow_zero, Nat.mod_one]
  | succ w ih =>
    have hbyte : (UInt8.ofNat (n % 256)).toNat = n % 256 := by
      rw [UInt8.toNat_ofNat', Nat.mod_mod]
    rw [littleEndian, ofLittleEndian, ih, hbyte, Nat.pow_succ', Nat.mod_mul]

/-! ### Reading what was written -/

/-- `decode` takes exactly `bytes` off the front of whatever follows them, as `a`. -/
def Reads {α : Type} (decode : Decoder α) (bytes : Bytes) (a : α) : Prop :=
  ∀ rest, decode (bytes ++ rest) = .ok (a, rest)

section Reads

variable {α β : Type} {decode : Decoder α} {next : α → Decoder β} {bytes bytes' : Bytes}
  {a : α} {b : β}

/-- Nothing is read as a value that is there already. -/
theorem Reads.pure (a : α) : Reads (pure a) [] a := by
  intro rest
  rfl

/-- What two encoders wrote one after the other, two decoders read one after the other. -/
theorem Reads.bind (first : Reads decode bytes a) (second : Reads (next a) bytes' b) :
    Reads (decode >>= next) (bytes ++ bytes') b := by
  intro rest
  show StateT.bind decode next (bytes ++ bytes' ++ rest) = _
  rw [List.append_assoc, StateT.bind, first]
  exact second rest

/-- The last of several steps may take nothing. -/
theorem Reads.bind_nil (first : Reads decode bytes a) (second : Reads (next a) [] b) :
    Reads (decode >>= next) bytes b := by
  have h := first.bind second
  rwa [List.append_nil] at h

/-- A value is read and then made another one. -/
theorem Reads.map (f : α → β) (first : Reads decode bytes a) :
    Reads (do let x ← decode; return f x) bytes (f a) :=
  first.bind_nil (.pure (f a))

/-- Enough bytes are taken whatever is to be said about fewer. -/
theorem reads_takeBytes (short : DecodeError) (bytes : Bytes) :
    Reads (takeBytes short bytes.length) bytes bytes := by
  intro rest
  simp only [takeBytes, List.take_left, List.drop_left, Nat.lt_irrefl, ↓reduceIte]

theorem reads_number (width : Nat) {n : Nat} (h : n < 256 ^ width) :
    Reads (decodeNumber width) (littleEndian width n) n := by
  have taken := reads_takeBytes .endInNumber (littleEndian width n)
  rw [length_littleEndian] at taken
  have number := taken.map ofLittleEndian
  rwa [ofLittleEndian_littleEndian, Nat.mod_eq_of_lt h] at number

theorem reads_word (n : UInt32) : Reads decodeWord (encodeWord n) n := by
  have word := (reads_number 4 n.toNat_lt).map UInt32.ofNat
  rwa [UInt32.ofNat_toNat] at word

theorem reads_length {n : Nat} (h : n < 2 ^ 64) : Reads decodeLength (encodeLength n) n :=
  reads_number _ h

theorem reads_index {n : Nat} (h : n < 2 ^ 32) : Reads decodeIndex (encodeIndex n) n :=
  reads_number _ h

/-- Items that are read one by one are read as a list. -/
theorem reads_items {encode : α → Bytes} {l : List α} (item : ∀ a ∈ l, Reads decode (encode a) a) :
    Reads (decodeItems decode l.length) (l.flatMap encode) l := by
  induction l with
  | nil => exact .pure []
  | cons a l ih =>
    have rest := ih fun x hx => item x (List.mem_cons_of_mem a hx)
    exact (item a List.mem_cons_self).bind (rest.map (a :: ·))

/-- A list is read with its length, if that fits its eight bytes. -/
theorem reads_list {encode : α → Bytes} {l : List α} (fits : l.length < 2 ^ 64)
    (item : ∀ a ∈ l, Reads decode (encode a) a) :
    Reads (decodeList decode) (encodeList encode l) l :=
  (reads_length fits).bind (reads_items item)

end Reads

/-! ### Texts, numbers and vocabulary -/

theorem reads_text {s : String} (fits : s.utf8ByteSize < 2 ^ 64) :
    Reads decodeText (encodeText s) s := by
  rw [← Text.Utf8.length_encode] at fits
  refine (reads_length fits).bind ?_
  refine (reads_takeBytes .endInText (Text.Utf8.encode s.toList)).bind_nil ?_
  rw [Text.Utf8.decode_encode]
  show Reads (pure (String.ofList s.toList)) [] s
  rw [String.ofList_toList]
  exact .pure s

theorem reads_single (x : Single) : Reads decodeSingle (encodeSingle x) x :=
  (reads_word x.bits).map Single.mk

theorem reads_color (c : Color) : Reads decodeColor (encodeColor c) c :=
  (reads_word c.argb).map Color.mk

theorem reads_alignment (a : Alignment) : Reads decodeAlignment (encodeAlignment a) a := by
  cases a with
  | leading => exact (reads_index (n := 0) (by decide)).map _
  | trailing => exact (reads_index (n := 1) (by decide)).map _
  | center => exact (reads_index (n := 2) (by decide)).map _

theorem reads_arrangement (a : Arrangement) :
    Reads decodeArrangement (encodeArrangement a) a := by
  cases a with
  | leading => exact (reads_index (n := 0) (by decide)).bind_nil (.pure _)
  | center => exact (reads_index (n := 1) (by decide)).bind_nil (.pure _)
  | trailing => exact (reads_index (n := 2) (by decide)).bind_nil (.pure _)
  | spaceEvenly => exact (reads_index (n := 3) (by decide)).bind_nil (.pure _)

theorem reads_textAlign (a : TextAlign) : Reads decodeTextAlign (encodeTextAlign a) a := by
  cases a with
  | leading => exact (reads_index (n := 0) (by decide)).bind_nil (.pure _)
  | center => exact (reads_index (n := 1) (by decide)).bind_nil (.pure _)

theorem reads_outline (x : Outline) : Reads decodeOutline (encodeOutline x) x := by
  cases x with
  | rectangle => exact (reads_index (n := 0) (by decide)).bind_nil (.pure _)
  | roundedRect radius =>
    exact (reads_index (n := 1) (by decide)).bind ((reads_single radius).map Outline.roundedRect)

/-! ### Modifiers -/

theorem reads_padding (left top right bottom : Single) :
    Reads decodePadding
      (encodeSingle left ++ (encodeSingle top ++ (encodeSingle right ++ encodeSingle bottom)))
      (.padding left top right bottom) :=
  (reads_single left).bind <| (reads_single top).bind <| (reads_single right).bind <|
    (reads_single bottom).map _

theorem reads_border (width : Single) (color : Color) (outline : Outline) :
    Reads decodeBorder (encodeSingle width ++ (encodeColor color ++ encodeOutline outline))
      (.border width color outline) :=
  (reads_single width).bind <| (reads_color color).bind <| (reads_outline outline).map _

theorem reads_onClick (action : HostAction) :
    Reads decodeOnClick (encodeWord action.actionId.toUInt32 ++ encodeWord action.name)
      (.onClick action) :=
  (reads_word action.actionId.toUInt32).bind <| (reads_word action.name).map _

theorem reads_modifier (m : Modifier) : Reads decodeModifier (encodeModifier m) m := by
  cases m with
  | fillMaxSize => exact (reads_index (n := 0) (by decide)).bind_nil (.pure _)
  | fillMaxWidth => exact (reads_index (n := 1) (by decide)).bind_nil (.pure _)
  | background color =>
    exact (reads_index (n := 2) (by decide)).bind ((reads_color color).map Modifier.background)
  | verticalScroll => exact (reads_index (n := 3) (by decide)).bind_nil (.pure _)
  | padding left top right bottom =>
    simp only [encodeModifier, List.append_assoc]
    exact (reads_index (n := 4) (by decide)).bind (reads_padding left top right bottom)
  | height length =>
    exact (reads_index (n := 5) (by decide)).bind ((reads_single length).map Modifier.height)
  | clip outline =>
    exact (reads_index (n := 6) (by decide)).bind ((reads_outline outline).map Modifier.clip)
  | border width color outline =>
    simp only [encodeModifier, List.append_assoc]
    exact (reads_index (n := 7) (by decide)).bind (reads_border width color outline)
  | onClick action =>
    simp only [encodeModifier, List.append_assoc]
    exact (reads_index (n := 8) (by decide)).bind (reads_onClick action)

/-! ### Operations -/

section Operations

variable {modifiers : List Modifier} (fits : modifiers.length < 2 ^ 64)

include fits

theorem reads_modifiers : Reads decodeModifiers (encodeModifiers modifiers) modifiers :=
  reads_list fits fun m _ => reads_modifier m

theorem reads_columnStart (horizontal : Alignment) (vertical : Arrangement) :
    Reads decodeColumnStart
      (encodeModifiers modifiers ++ (encodeAlignment horizontal ++ encodeArrangement vertical))
      (.columnStart modifiers horizontal vertical) :=
  (reads_modifiers fits).bind <| (reads_alignment horizontal).bind <|
    (reads_arrangement vertical).map _

theorem reads_rowStart (horizontal : Arrangement) (vertical : Alignment) :
    Reads decodeRowStart
      (encodeModifiers modifiers ++ (encodeArrangement horizontal ++ encodeAlignment vertical))
      (.rowStart modifiers horizontal vertical) :=
  (reads_modifiers fits).bind <| (reads_arrangement horizontal).bind <|
    (reads_alignment vertical).map _

theorem reads_boxStart (horizontal vertical : Alignment) :
    Reads decodeBoxStart
      (encodeModifiers modifiers ++ (encodeAlignment horizontal ++ encodeAlignment vertical))
      (.boxStart modifiers horizontal vertical) :=
  (reads_modifiers fits).bind <| (reads_alignment horizontal).bind <|
    (reads_alignment vertical).map _

theorem reads_textRun (text : TextId) (color : Color) (fontSize fontWeight : Single)
    (align : TextAlign) :
    Reads decodeTextRun
      (encodeModifiers modifiers ++ (encodeWord text ++ (encodeColor color ++
        (encodeSingle fontSize ++ (encodeSingle fontWeight ++ encodeTextAlign align)))))
      (.text ⟨modifiers, text, color, fontSize, fontWeight, align⟩) :=
  (reads_modifiers fits).bind <| (reads_word text).bind <| (reads_color color).bind <|
    (reads_single fontSize).bind <| (reads_single fontWeight).bind <| (reads_textAlign align).map _

end Operations

/-- An operation is read as it was written, if the number of its modifiers fits its eight bytes. -/
theorem reads_operation {op : Operation} (fits : op.modifiers.length < 2 ^ 64) :
    Reads decodeOperation (encodeOperation op) op := by
  cases op with
  | rootStart => exact (reads_index (n := 0) (by decide)).bind_nil (.pure _)
  | rootEnd => exact (reads_index (n := 1) (by decide)).bind_nil (.pure _)
  | columnStart modifiers horizontal vertical =>
    simp only [encodeOperation, List.append_assoc]
    exact (reads_index (n := 2) (by decide)).bind (reads_columnStart fits horizontal vertical)
  | rowStart modifiers horizontal vertical =>
    simp only [encodeOperation, List.append_assoc]
    exact (reads_index (n := 3) (by decide)).bind (reads_rowStart fits horizontal vertical)
  | boxStart modifiers horizontal vertical =>
    simp only [encodeOperation, List.append_assoc]
    exact (reads_index (n := 4) (by decide)).bind (reads_boxStart fits horizontal vertical)
  | containerEnd => exact (reads_index (n := 5) (by decide)).bind_nil (.pure _)
  | text run =>
    simp only [encodeOperation, List.append_assoc]
    exact (reads_index (n := 6) (by decide)).bind
      (reads_textRun fits run.text run.color run.fontSize run.fontWeight run.align)

/-! ### Documents -/

/-- Every length of a document fits the eight bytes that it is written in. -/
structure FitsLengths (d : Document) : Prop where
  texts : d.texts.length < 2 ^ 64
  text : ∀ s ∈ d.texts, s.utf8ByteSize < 2 ^ 64
  operations : d.operations.length < 2 ^ 64
  modifiers : ∀ op ∈ d.operations, op.modifiers.length < 2 ^ 64

instance (d : Document) : Decidable d.FitsLengths :=
  decidable_of_iff
    ((d.texts.length < 2 ^ 64 ∧ ∀ s ∈ d.texts, s.utf8ByteSize < 2 ^ 64) ∧
      d.operations.length < 2 ^ 64 ∧ ∀ op ∈ d.operations, op.modifiers.length < 2 ^ 64)
    ⟨fun h => ⟨h.1.1, h.1.2, h.2.1, h.2.2⟩, fun h => ⟨⟨h.texts, h.text⟩, h.operations, h.modifiers⟩⟩

theorem reads_header (h : Header) : Reads decodeHeader (encodeHeader h) h := by
  have fields : Reads decodeHeader
      (littleEndian 2 h.version.toNat ++
        (encodeWord h.width ++ (encodeWord h.height ++ encodeSingle h.density)))
      ⟨UInt16.ofNat h.version.toNat, h.width, h.height, h.density⟩ :=
    (reads_number 2 h.version.toNat_lt).bind <| (reads_word h.width).bind <|
      (reads_word h.height).bind <| (reads_single h.density).map _
  rw [UInt16.ofNat_toNat] at fields
  simp only [encodeHeader, List.append_assoc]
  exact fields

/-- What follows the magic is read as the document. -/
theorem reads_body {d : Document} (fits : d.FitsLengths) :
    Reads decodeBody
      (encodeHeader d.header ++
        (encodeList encodeText d.texts ++ encodeList encodeOperation d.operations)) d :=
  (reads_header d.header).bind <|
    (reads_list fits.texts fun s hs => reads_text (fits.text s hs)).bind <|
      (reads_list fits.operations fun op hop => reads_operation (fits.modifiers op hop)).map _

/-- A document is read from its bytes, whatever follows them. -/
theorem decode_encode {d : Document} (fits : d.FitsLengths) (rest : Bytes) :
    decode (d.encode ++ rest) = .ok d := by
  have hbytes : d.encode ++ rest = magic ++ (encodeHeader d.header ++
      (encodeList encodeText d.texts ++ encodeList encodeOperation d.operations) ++ rest) := by
    simp only [encode, List.append_assoc]
  rw [hbytes, decode, List.take_left, List.drop_left, if_pos rfl, reads_body fits rest]
  rfl

/-- **A document is read from its bytes, whatever follows them.** Hence the bytes of a document
begin with those of no other one, and in particular no two documents have the same bytes. -/
theorem decode_encode_append {d : Document} (fits : d.FitsLengths) :
    (∀ rest, decode (d.encode ++ rest) = .ok d) ∧
      ∀ d' : Document, d'.FitsLengths → d.encode <+: d'.encode → d = d' := by
  refine ⟨decode_encode fits, ?_⟩
  rintro d' fits' ⟨rest, h⟩
  have read := decode_encode fits rest
  have read' := decode_encode fits' []
  rw [h] at read
  rw [List.append_nil, read] at read'
  exact Except.ok.inj read'

/-- A document that no writer makes: a container ends that nothing started, an action has no name
in the table, and one length is no number. -/
def unnested : Document where
  header := ⟨7, 0, 0xFFFFFFFF, ⟨0x7FC00001⟩⟩
  texts := ["", "é😀"]
  operations :=
    [.containerEnd, .boxStart [.onClick ⟨-1, 9⟩, .height ⟨0x80000000⟩] .center .trailing]

theorem decode_encode_append_unnested :
    unnested.FitsLengths ∧ (∀ rest, decode (unnested.encode ++ rest) = .ok unnested) ∧
      ∀ d' : Document, d'.FitsLengths → unnested.encode <+: d'.encode → unnested = d' :=
  have fits : unnested.FitsLengths := by decide
  ⟨fits, decode_encode_append fits⟩

end LayoutCompiler.Document
