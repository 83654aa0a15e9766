import LayoutCompiler.Proofs.Document.RoundTrip
import LayoutCompiler.Proofs.Outcome
import Mathlib.Data.List.Forall2

/-
What decoders accept. A decoder `Takes` spellings if, whatever the bytes are, what it
takes off their front spells the value that it gives; decoders that run one after
another take spellings one after another. Every component has its encoding for its only
spelling, apart from alignments: the center is also spelled by every index that stands
for no alignment. So the bytes that are decoded as a document are those of the document
up to the indices of its centers (`decode_spellings`).
-/

namespace LayoutCompiler.Document

open Number (Single)

/-! ### Little-endian numbers -/

theorem ofLittleEndian_lt (bytes : Bytes) : ofLittleEndian bytes < 256 ^ bytes.length := by
  induction bytes with
  | nil => exact Nat.one_pos
  | cons b bs ih =>
    have hb := b.toNat_lt
    rw [ofLittleEndian, List.length_cons, Nat.pow_succ]
    omega

/-- A number has no other bytes of the same width. -/
theorem littleEndian_ofLittleEndian (bytes : Bytes) :
    littleEndian bytes.length (ofLittleEndian bytes) = bytes := by
  induction bytes with
  | nil => rfl
  | cons b bs ih =>
    have hb := b.toNat_lt
    have hlow : (b.toNat + 256 * ofLittleEndian bs) % 256 = b.toNat := by omega
    have hhigh : (b.toNat + 256 * ofLittleEndian bs) / 256 = ofLittleEndian bs := by omega
    rw [ofLittleEndian, List.length_cons, littleEndian, hlow, hhigh, ih, UInt8.ofNat_toNat]

/-! ### Taking spellings -/

/-- What `decode` takes off the front of any bytes spells the value that it gives; if it fails, that
is not for want of the magic. -/
structure Takes {α : Type} (decode : Decoder α) (Spells : α → Bytes → Prop) : Prop where
  spells : ∀ bytes a rest, decode bytes = .ok (a, rest) →
    ∃ front, bytes = front ++ rest ∧ Spells a front
  ne_badMagic : ∀ bytes, decode bytes ≠ .error .badMagic

section Takes

variable {α β : Type} {decode : Decoder α} {next : α → Decoder β} {encode : α → Bytes}
  {S : α → Bytes → Prop} {T : β → Bytes → Prop}

theorem Takes.pure {a : α} (h : S a []) : Takes (pure a) S where
  spells := by
    rintro bytes _ _ ⟨⟩
    exact ⟨[], rfl, h⟩
  ne_badMagic := by
    rintro bytes ⟨⟩

theorem Takes.throw {e : DecodeError} (h : e ≠ .badMagic) : Takes (throw e) S where
  spells := by
    rintro bytes _ _ ⟨⟩
  ne_badMagic := by
    rintro bytes ⟨⟩
    exact h rfl

/-- Two decoders that run one after the other take spellings one after the other. -/
theorem Takes.bind (first : Takes decode S)
    (second : ∀ a front, S a front → Takes (next a) fun b back => T b (front ++ back)) :
    Takes (decode >>= next) T where
  spells bytes b rest h := by
    obtain ⟨⟨a, mid⟩, hfirst, hsecond⟩ := Outcome.exists_of_bind_eq_ok h
    obtain ⟨front, rfl, hfront⟩ := first.spells bytes a mid hfirst
    obtain ⟨back, rfl, hback⟩ := (second a front hfront).spells mid b rest hsecond
    exact ⟨front ++ back, (List.append_assoc ..).symm, hback⟩
  ne_badMagic bytes h := by
    change (decode bytes >>= fun (a, mid) => next a mid) = _ at h
    cases hfirst : decode bytes with
    | error e =>
      rw [hfirst] at h
      cases h
      exact first.ne_badMagic bytes hfirst
    | ok result =>
      obtain ⟨a, mid⟩ := result
      rw [hfirst] at h
      obtain ⟨front, -, hfront⟩ := first.spells bytes a mid hfirst
      exact (second a front hfront).ne_badMagic mid h

theorem Takes.mono {S' : α → Bytes → Prop} (h : Takes decode S)
    (hS : ∀ a front, S a front → S' a front) : Takes decode S' where
  spells bytes a rest hdecode := by
    obtain ⟨front, rfl, hfront⟩ := h.spells bytes a rest hdecode
    exact ⟨front, rfl, hS a front hfront⟩
  ne_badMagic := h.ne_badMagic

/-- The last of several steps may take nothing. -/
theorem Takes.map {f : α → β} (first : Takes decode S)
    (h : ∀ a front, S a front → T (f a) front) : Takes (do let a ← decode; return f a) T :=
  first.bind fun a front hfront => .pure (by
    rw [List.append_nil]
    exact h a front hfront)

theorem takes_bytes {short : DecodeError} (hshort : short ≠ .badMagic) (n : Nat) :
    Takes (takeBytes short n) fun taken front => front = taken ∧ taken.length = n where
  spells bytes taken rest h := by
    unfold takeBytes at h
    simp only at h
    split at h
    · cases h
    · next hlength =>
      cases h
      refine ⟨bytes.take n, (List.take_append_drop n bytes).symm, rfl, ?_⟩
      have hle := List.length_take_le n bytes
      omega
  ne_badMagic bytes h := by
    unfold takeBytes at h
    simp only at h
    split at h
    · cases h
      exact hshort rfl
    · cases h

theorem takes_number (width : Nat) :
    Takes (decodeNumber width) fun n front => front = littleEndian width n ∧ n < 256 ^ width := by
  refine (takes_bytes (by decide : DecodeError.endInNumber ≠ _) width).map ?_
  rintro _ front ⟨rfl, rfl⟩
  exact ⟨(littleEndian_ofLittleEndian front).symm, ofLittleEndian_lt front⟩

theorem takes_word : Takes decodeWord fun n front => front = encodeWord n := by
  refine (takes_number 4).map ?_
  rintro n _ ⟨rfl, hn⟩
  rw [encodeWord, UInt32.toNat_ofNat_of_lt' hn]

theorem takes_length : Takes decodeLength fun n front => front = encodeLength n ∧ n < 2 ^ 64 :=
  takes_number 8

theorem takes_index : Takes decodeIndex fun n front => front = encodeIndex n ∧ n < 2 ^ 32 :=
  takes_number 4

/-- A list is spelled by its length and by spellings of its items. -/
def SpellsList (S : α → Bytes → Prop) (l : List α) (front : Bytes) : Prop :=
  l.length < 2 ^ 64 ∧
    ∃ pieces, List.Forall₂ S l pieces ∧ front = encodeLength l.length ++ pieces.flatten

theorem takes_items (item : Takes decode S) (n : Nat) :
    Takes (decodeItems decode n) fun l front =>
      l.length = n ∧ ∃ pieces, List.Forall₂ S l pieces ∧ front = pieces.flatten := by
  induction n with
  | zero => exact .pure ⟨rfl, [], .nil, rfl⟩
  | succ n ih =>
    refine item.bind fun a piece ha => ih.map ?_
    rintro l _ ⟨rfl, pieces, hl, rfl⟩
    exact ⟨rfl, piece :: pieces, .cons ha hl, rfl⟩

theorem takes_list (item : Takes decode S) : Takes (decodeList decode) (SpellsList S) := by
  refine takes_length.bind ?_
  rintro n _ ⟨rfl, hn⟩
  refine (takes_items item n).mono ?_
  rintro l _ ⟨rfl, pieces, hl, rfl⟩
  exact ⟨hn, pieces, hl, rfl⟩

/-- What a spelling says of an item holds of every item of a list. -/
theorem forall_mem_of_forall₂ {l : List α} {pieces : List Bytes} {Q : α → Prop}
    (hS : ∀ a front, S a front → Q a) (h : List.Forall₂ S l pieces) : ∀ a ∈ l, Q a := by
  induction h with
  | nil => exact fun a ha => absurd ha List.not_mem_nil
  | cons ha _ ih => exact List.forall_mem_cons.mpr ⟨hS _ _ ha, ih⟩

/-- Items that have no other spelling than their encoding are spelled one by one as they are
encoded. -/
theorem flatten_eq_of_forall₂ {l : List α} {pieces : List Bytes}
    (hS : ∀ a front, S a front → front = encode a) (h : List.Forall₂ S l pieces) :
    pieces.flatten = l.flatMap encode := by
  induction h with
  | nil => rfl
  | cons ha _ ih => rw [List.flatten_cons, ih, hS _ _ ha, List.flatMap_cons]

theorem eq_encodeList_of_spellsList {l : List α} {front : Bytes}
    (hS : ∀ a front, S a front → front = encode a) (h : SpellsList S l front) :
    front = encodeList encode l := by
  obtain ⟨-, pieces, hpieces, rfl⟩ := h
  rw [encodeList, flatten_eq_of_forall₂ hS hpieces]

end Takes

/-! ### Components with one spelling -/

theorem takes_text :
    Takes decodeText fun s front => front = encodeText s ∧ s.utf8ByteSize < 2 ^ 64 := by
  refine takes_length.bind ?_
  rintro n _ ⟨rfl, hn⟩
  refine (takes_bytes (by decide : DecodeError.endInText ≠ _) n).bind ?_
  rintro _ front ⟨rfl, rfl⟩
  split
  · next cs hcs =>
    refine .pure ?_
    have hcs' := Text.Utf8.encode_of_decode hcs
    have hlist : (String.ofList cs).toList = cs := String.toList_ofList
    rw [encodeText, hlist, hcs', List.append_nil, ← Text.Utf8.length_encode, hlist, hcs']
    exact ⟨rfl, hn⟩
  · exact .throw (by simp)

theorem takes_single : Takes decodeSingle fun x front => front = encodeSingle x :=
  takes_word.map fun _ _ h => h

theorem takes_color : Takes decodeColor fun c front => front = encodeColor c :=
  takes_word.map fun _ _ h => h

theorem takes_arrangement : Takes decodeArrangement fun a front => front = encodeArrangement a := by
  refine takes_index.bind ?_
  rintro index _ ⟨rfl, -⟩
  split
  · exact .pure rfl
  · exact .pure rfl
  · exact .pure rfl
  · exact .pure rfl
  · exact .throw (by simp)

theorem takes_textAlign : Takes decodeTextAlign fun a front => front = encodeTextAlign a := by
  refine takes_index.bind ?_
  rintro index _ ⟨rfl, -⟩
  split
  · exact .pure rfl
  · exact .pure rfl
  · exact .throw (by simp)

theorem takes_outline : Takes decodeOutline fun x front => front = encodeOutline x := by
  refine takes_index.bind ?_
  rintro index _ ⟨rfl, -⟩
  split
  · exact .pure rfl
  · refine takes_single.map ?_
    rintro radius _ rfl
    rfl
  · exact .throw (by simp)

/-! ### Modifiers -/

theorem takes_padding :
    Takes decodePadding fun m front => encodeIndex 4 ++ front = encodeModifier m := by
  refine takes_single.bind ?_
  rintro left _ rfl
  refine takes_single.bind ?_
  rintro top _ rfl
  refine takes_single.bind ?_
  rintro right _ rfl
  refine takes_single.map ?_
  rintro bottom _ rfl
  simp only [encodeModifier, List.append_assoc]

theorem takes_border :
    Takes decodeBorder fun m front => encodeIndex 7 ++ front = encodeModifier m := by
  refine takes_single.bind ?_
  rintro width _ rfl
  refine takes_color.bind ?_
  rintro color _ rfl
  refine takes_outline.map ?_
  rintro outline _ rfl
  simp only [encodeModifier, List.append_assoc]

theorem takes_onClick :
    Takes decodeOnClick fun m front => encodeIndex 8 ++ front = encodeModifier m := by
  refine takes_word.bind ?_
  rintro actionId _ rfl
  refine takes_word.map ?_
  rintro name _ rfl
  simp only [encodeModifier, List.append_assoc, UInt32.toUInt32_toInt32]

theorem takes_modifier : Takes decodeModifier fun m front => front = encodeModifier m := by
  refine takes_index.bind ?_
  rintro index _ ⟨rfl, -⟩
  split
  · exact .pure rfl
  · exact .pure rfl
  · refine takes_color.map ?_
    rintro color _ rfl
    rfl
  · exact .pure rfl
  · exact takes_padding
  · refine takes_single.map ?_
    rintro length _ rfl
    rfl
  · refine takes_outline.map ?_
    rintro outline _ rfl
    rfl
  · exact takes_border
  · exact takes_onClick
  · exact .throw (by simp)

theorem takes_modifiers :
    Takes decodeModifiers fun l front => front = encodeModifiers l ∧ l.length < 2 ^ 64 :=
  (takes_list takes_modifier).mono fun _ _ h =>
    ⟨eq_encodeList_of_spellsList (fun _ _ h => h) h, h.1⟩

/-! ### Operations -/

/-- The alignment that is read where an index stands for one. -/
def alignmentAt : Nat → Alignment
  | 0 => .leading
  | 1 => .trailing
  | _ => .center

/-- An alignment is spelled by any index below `count` that stands for it. -/
def SpellsAlignment (count : Nat) (a : Alignment) (front : Bytes) : Prop :=
  ∃ index < count, alignmentAt index = a ∧ front = encodeIndex index

/-- An operation is spelled as it is encoded, but for its alignments. -/
inductive SpellsOperation (count : Nat) : Operation → Bytes → Prop where
  | rootStart : SpellsOperation count .rootStart (encodeIndex 0)
  | rootEnd : SpellsOperation count .rootEnd (encodeIndex 1)
  | columnStart {modifiers : List Modifier} {horizontal : Alignment} {front : Bytes}
      (vertical : Arrangement) : modifiers.length < 2 ^ 64 →
        SpellsAlignment count horizontal front →
          SpellsOperation count (.columnStart modifiers horizontal vertical)
            (encodeIndex 2 ++ (encodeModifiers modifiers ++ (front ++ encodeArrangement vertical)))
  | rowStart {modifiers : List Modifier} (horizontal : Arrangement) {vertical : Alignment}
      {front : Bytes} : modifiers.length < 2 ^ 64 → SpellsAlignment count vertical front →
        SpellsOperation count (.rowStart modifiers horizontal vertical)
          (encodeIndex 3 ++ (encodeModifiers modifiers ++ (encodeArrangement horizontal ++ front)))
  | boxStart {modifiers : List Modifier} {horizontal vertical : Alignment} {front back : Bytes} :
      modifiers.length < 2 ^ 64 → SpellsAlignment count horizontal front →
        SpellsAlignment count vertical back →
          SpellsOperation count (.boxStart modifiers horizontal vertical)
            (encodeIndex 4 ++ (encodeModifiers modifiers ++ (front ++ back)))
  | containerEnd : SpellsOperation count .containerEnd (encodeIndex 5)
  | text {run : TextRun} : run.modifiers.length < 2 ^ 64 →
      SpellsOperation count (.text run) (encodeOperation (.text run))

theorem takes_alignment : Takes decodeAlignment (SpellsAlignment (2 ^ 32)) := by
  refine takes_index.map ?_
  rintro index _ ⟨rfl, hindex⟩
  refine ⟨index, hindex, ?_, rfl⟩
  unfold alignmentAt
  rfl

theorem takes_columnStart :
    Takes decodeColumnStart fun op front =>
      SpellsOperation (2 ^ 32) op (encodeIndex 2 ++ front) := by
  refine takes_modifiers.bind ?_
  rintro modifiers _ ⟨rfl, fits⟩
  refine takes_alignment.bind fun horizontal front hfront => ?_
  refine takes_arrangement.map ?_
  rintro vertical _ rfl
  exact .columnStart vertical fits hfront

theorem takes_rowStart :
    Takes decodeRowStart fun op front =>
      SpellsOperation (2 ^ 32) op (encodeIndex 3 ++ front) := by
  refine takes_modifiers.bind ?_
  rintro modifiers _ ⟨rfl, fits⟩
  refine takes_arrangement.bind ?_
  rintro horizontal _ rfl
  exact takes_alignment.map fun vertical front hfront => .rowStart horizontal fits hfront

theorem takes_boxStart :
    Takes decodeBoxStart fun op front =>
      SpellsOperation (2 ^ 32) op (encodeIndex 4 ++ front) := by
  refine takes_modifiers.bind ?_
  rintro modifiers _ ⟨rfl, fits⟩
  refine takes_alignment.bind fun horizontal front hfront => ?_
  exact takes_alignment.map fun vertical back hback => .boxStart fits hfront hback

theorem takes_textRun :
    Takes decodeTextRun fun op front =>
      SpellsOperation (2 ^ 32) op (encodeIndex 6 ++ front) := by
  refine takes_modifiers.bind ?_
  rintro modifiers _ ⟨rfl, fits⟩
  refine takes_word.bind ?_
  rintro text _ rfl
  refine takes_color.bind ?_
  rintro color _ rfl
  refine takes_single.bind ?_
  rintro fontSize _ rfl
  refine takes_single.bind ?_
  rintro fontWeight _ rfl
  refine takes_textAlign.map ?_
  rintro align _ rfl
  have htext : SpellsOperation (2 ^ 32)
      (.text ⟨modifiers, text, color, fontSize, fontWeight, align⟩) _ := .text fits
  simpa only [encodeOperation, List.append_assoc] using htext

theorem takes_operation : Takes decodeOperation (SpellsOperation (2 ^ 32)) := by
  refine takes_index.bind ?_
  rintro index _ ⟨rfl, -⟩
  split
  · exact .pure .rootStart
  · exact .pure .rootEnd
  · exact takes_columnStart
  · exact takes_rowStart
  · exact takes_boxStart
  · exact .pure .containerEnd
  · exact takes_textRun
  · exact .throw (by simp)

/-! ### Documents -/

/-- A document is spelled as it is encoded, but for the alignments of its operations: these are
spelled by indices below `count`. -/
def SpellsDocument (count : Nat) (d : Document) (front : Bytes) : Prop :=
  d.FitsLengths ∧
    ∃ pieces, List.Forall₂ (SpellsOperation count) d.operations pieces ∧
      front = magic ++ (encodeHeader d.header ++ (encodeList encodeText d.texts ++
        (encodeLength d.operations.length ++ pieces.flatten)))

theorem takes_header : Takes decodeHeader fun h front => front = encodeHeader h := by
  refine (takes_number 2).bind ?_
  rintro version _ ⟨rfl, hversion⟩
  refine takes_word.bind ?_
  rintro width _ rfl
  refine takes_word.bind ?_
  rintro height _ rfl
  refine takes_single.map ?_
  rintro density _ rfl
  rw [encodeHeader, UInt16.toNat_ofNat_of_lt' hversion]
  simp only [List.append_assoc]

theorem SpellsOperation.length_modifiers_lt {count : Nat} {op : Operation} {front : Bytes}
    (h : SpellsOperation count op front) : op.modifiers.length < 2 ^ 64 := by
  cases h with
  | columnStart _ fits | rowStart _ fits | boxStart fits | text fits => exact fits
  | rootStart | rootEnd | containerEnd => exact Nat.two_pow_pos 64

theorem takes_body :
    Takes decodeBody fun d front => SpellsDocument (2 ^ 32) d (magic ++ front) := by
  refine takes_header.bind ?_
  rintro header _ rfl
  refine (takes_list takes_text).bind fun texts front htexts => ?_
  obtain rfl := eq_encodeList_of_spellsList (fun _ _ h => h.1) htexts
  obtain ⟨htexts, _, hpieces, -⟩ := htexts
  have htext := forall_mem_of_forall₂ (fun _ _ h => h.2) hpieces
  refine (takes_list takes_operation).map ?_
  rintro operations _ ⟨hoperations, pieces, hpieces, rfl⟩
  have hmodifiers := forall_mem_of_forall₂ (fun _ _ h => h.length_modifiers_lt) hpieces
  exact ⟨⟨htexts, htext, hoperations, hmodifiers⟩, pieces, hpieces, rfl⟩

/-! ### Spellings are accepted -/

theorem reads_alignmentAt {index : Nat} (h : index < 2 ^ 32) :
    Reads decodeAlignment (encodeIndex index) (alignmentAt index) :=
  (reads_index h).map alignmentAt

theorem SpellsOperation.reads {op : Operation} {front : Bytes}
    (h : SpellsOperation (2 ^ 32) op front) : Reads decodeOperation front op := by
  have fits := h.length_modifiers_lt
  cases h with
  | rootStart | rootEnd | containerEnd | text => exact reads_operation fits
  | columnStart vertical _ halignment =>
    obtain ⟨index, hindex, rfl, rfl⟩ := halignment
    exact (reads_index (n := 2) (by decide)).bind <| (reads_modifiers fits).bind <|
      (reads_alignmentAt hindex).bind <| (reads_arrangement vertical).map _
  | rowStart horizontal _ halignment =>
    obtain ⟨index, hindex, rfl, rfl⟩ := halignment
    exact (reads_index (n := 3) (by decide)).bind <| (reads_modifiers fits).bind <|
      (reads_arrangement horizontal).bind <| (reads_alignmentAt hindex).map _
  | boxStart _ hhorizontal hvertical =>
    obtain ⟨index, hindex, rfl, rfl⟩ := hhorizontal
    obtain ⟨index', hindex', rfl, rfl⟩ := hvertical
    exact (reads_index (n := 4) (by decide)).bind <| (reads_modifiers fits).bind <|
      (reads_alignmentAt hindex).bind <| (reads_alignmentAt hindex').map _

theorem reads_spelled_items {α : Type} {decode : Decoder α} {S : α → Bytes → Prop} {l : List α}
    {pieces : List Bytes} (h : List.Forall₂ S l pieces)
    (item : ∀ a front, S a front → Reads decode front a) :
    Reads (decodeItems decode l.length) pieces.flatten l := by
  induction h with
  | nil => exact .pure []
  | @cons a front l pieces ha _ ih => exact (item a front ha).bind (ih.map (a :: ·))

/-- A document is read from its spellings, whatever follows them. -/
theorem decode_of_spellsDocument {d : Document} {front : Bytes}
    (h : SpellsDocument (2 ^ 32) d front) (rest : Bytes) : decode (front ++ rest) = .ok d := by
  obtain ⟨fits, pieces, hpieces, rfl⟩ := h
  have hbody : Reads decodeBody (encodeHeader d.header ++ (encodeList encodeText d.texts ++
      (encodeLength d.operations.length ++ pieces.flatten))) d :=
    (reads_header d.header).bind <|
      (reads_list fits.texts fun s hs => reads_text (fits.text s hs)).bind <|
        ((reads_length fits.operations).bind <|
          reads_spelled_items hpieces fun _ _ h => h.reads).map _
  rw [List.append_assoc, decode, List.take_left, List.drop_left, if_pos rfl, hbody rest]
  rfl

/-! ### Spellings that are encodings -/

theorem spellsAlignment_three_iff {a : Alignment} {front : Bytes} :
    SpellsAlignment 3 a front ↔ front = encodeAlignment a := by
  constructor
  · rintro ⟨index, hindex, rfl, rfl⟩
    have hcases : index = 0 ∨ index = 1 ∨ index = 2 := by omega
    rcases hcases with rfl | rfl | rfl <;> rfl
  · rintro rfl
    cases a with
    | leading => exact ⟨0, by decide, rfl, rfl⟩
    | trailing => exact ⟨1, by decide, rfl, rfl⟩
    | center => exact ⟨2, by decide, rfl, rfl⟩

theorem spellsOperation_three_iff {op : Operation} {front : Bytes} :
    SpellsOperation 3 op front ↔ op.modifiers.length < 2 ^ 64 ∧ front = encodeOperation op := by
  constructor
  · intro h
    refine ⟨h.length_modifiers_lt, ?_⟩
    cases h with
    | rootStart | rootEnd | containerEnd | text => rfl
    | columnStart _ _ halignment | rowStart _ _ halignment =>
      obtain rfl := spellsAlignment_three_iff.mp halignment
      simp only [encodeOperation, List.append_assoc]
    | boxStart _ hhorizontal hvertical =>
      obtain rfl := spellsAlignment_three_iff.mp hhorizontal
      obtain rfl := spellsAlignment_three_iff.mp hvertical
      simp only [encodeOperation, List.append_assoc]
  · rintro ⟨fits, rfl⟩
    cases op with
    | rootStart => exact .rootStart
    | rootEnd => exact .rootEnd
    | columnStart modifiers horizontal vertical =>
      simp only [encodeOperation, List.append_assoc]
      exact .columnStart vertical fits (spellsAlignment_three_iff.mpr rfl)
    | rowStart modifiers horizontal vertical =>
      simp only [encodeOperation, List.append_assoc]
      exact .rowStart horizontal fits (spellsAlignment_three_iff.mpr rfl)
    | boxStart modifiers horizontal vertical =>
      simp only [encodeOperation, List.append_assoc]
      exact .boxStart fits (spellsAlignment_three_iff.mpr rfl) (spellsAlignment_three_iff.mpr rfl)
    | containerEnd => exact .containerEnd
    | text run => exact .text fits

theorem spellsDocument_three_iff {d : Document} {front : Bytes} :
    SpellsDocument 3 d front ↔ d.FitsLengths ∧ front = d.encode := by
  have hencode : d.encode = magic ++ (encodeHeader d.header ++ (encodeList encodeText d.texts ++
      (encodeLength d.operations.length ++ d.operations.flatMap encodeOperation))) := by
    simp only [encode, encodeList, List.append_assoc]
  rw [hencode, SpellsDocument]
  refine and_congr_right fun fits => ⟨?_, ?_⟩
  · rintro ⟨pieces, hpieces, rfl⟩
    have heach (op : Operation) (piece : Bytes) (h : SpellsOperation 3 op piece) :=
      (spellsOperation_three_iff.mp h).2
    rw [flatten_eq_of_forall₂ heach hpieces]
  · rintro rfl
    refine ⟨d.operations.map encodeOperation, ?_, by rw [List.flatMap_def]⟩
    rw [List.forall₂_map_right_iff, List.forall₂_same]
    exact fun op hop => spellsOperation_three_iff.mpr ⟨fits.modifiers op hop, rfl⟩

/-! ### Indices that stand for nothing -/

/-- Indices from `count` on are refused where an alternative is read. -/
def RefusesFrom {α : Type} (count : Nat) (decode : Decoder α) : Prop :=
  ∀ index rest, count ≤ index → index < 2 ^ 32 →
    decode (encodeIndex index ++ rest) = .error (.unknownIndex index count)

theorem refusesFrom_of_bind {α : Type} {count : Nat} {next : Nat → Decoder α}
    (h : ∀ k, next (k + count) = throw (.unknownIndex (k + count) count)) :
    RefusesFrom count (decodeIndex >>= next) := by
  intro index rest hcount hindex
  obtain ⟨k, rfl⟩ := Nat.exists_eq_add_of_le' hcount
  show StateT.bind decodeIndex next _ = _
  rw [StateT.bind, reads_index hindex]
  show next (k + count) rest = _
  rw [h k]
  rfl

theorem refusesFrom_operation : RefusesFrom 7 decodeOperation :=
  refusesFrom_of_bind fun _ => rfl

theorem refusesFrom_modifier : RefusesFrom 9 decodeModifier :=
  refusesFrom_of_bind fun _ => rfl

theorem refusesFrom_outline : RefusesFrom 2 decodeOutline :=
  refusesFrom_of_bind fun _ => rfl

theorem refusesFrom_arrangement : RefusesFrom 4 decodeArrangement :=
  refusesFrom_of_bind fun _ => rfl

theorem refusesFrom_textAlign : RefusesFrom 2 decodeTextAlign :=
  refusesFrom_of_bind fun _ => rfl

theorem spellsDocument_of_decode {bytes : Bytes} {d : Document} (h : decode bytes = .ok d) :
    ∃ front rest, bytes = front ++ rest ∧ SpellsDocument (2 ^ 32) d front := by
  unfold decode at h
  split at h
  · next hmagic =>
    cases hbody : decodeBody (bytes.drop magic.length) with
    | error e =>
      rw [hbody] at h
      cases h
    | ok result =>
      obtain ⟨d', rest⟩ := result
      rw [hbody] at h
      cases h
      obtain ⟨front, hdrop, hfront⟩ := takes_body.spells _ _ _ hbody
      refine ⟨magic ++ front, rest, ?_, hfront⟩
      rw [List.append_assoc, ← hdrop]
      nth_rewrite 1 [← hmagic]
      exact (List.take_append_drop _ bytes).symm
  · cases h

theorem decode_ne_badMagic {bytes : Bytes} (h : magic <+: bytes) :
    decode bytes ≠ .error .badMagic := by
  obtain ⟨body, rfl⟩ := h
  rw [decode, List.take_left, List.drop_left, if_pos rfl]
  intro h
  cases hbody : decodeBody body with
  | error e =>
    rw [hbody] at h
    cases h
    exact takes_body.ne_badMagic body hbody
  | ok result =>
    rw [hbody] at h
    cases h

/-- **What is decoded.** Bytes are decoded as a document if and only if they begin with a spelling
of it, and they begin with its encoding if and only if all alignments of this spelling have indices
below three. Bytes that begin with the magic fail only for what comes after it, and everywhere but
in the place of an alignment an index that stands for nothing is refused. -/
theorem decode_spellings (bytes : Bytes) (d : Document) :
    (decode bytes = .ok d ↔
      ∃ front rest, bytes = front ++ rest ∧ SpellsDocument (2 ^ 32) d front) ∧
    (decode bytes = .ok d ∧ d.encode <+: bytes ↔
      ∃ front rest, bytes = front ++ rest ∧ SpellsDocument 3 d front) ∧
    (magic <+: bytes → decode bytes ≠ .error .badMagic) ∧
    RefusesFrom 7 decodeOperation ∧ RefusesFrom 9 decodeModifier ∧ RefusesFrom 2 decodeOutline ∧
    RefusesFrom 4 decodeArrangement ∧ RefusesFrom 2 decodeTextAlign := by
  refine ⟨⟨spellsDocument_of_decode, ?_⟩, ⟨?_, ?_⟩, decode_ne_badMagic, refusesFrom_operation,
    refusesFrom_modifier, refusesFrom_outline, refusesFrom_arrangement, refusesFrom_textAlign⟩
  · rintro ⟨front, rest, rfl, hfront⟩
    exact decode_of_spellsDocument hfront rest
  · rintro ⟨hdecode, rest, rfl⟩
    obtain ⟨-, -, -, fits, -⟩ := spellsDocument_of_decode hdecode
    exact ⟨d.encode, rest, rfl, spellsDocument_three_iff.mpr ⟨fits, rfl⟩⟩
  · rintro ⟨front, rest, rfl, hfront⟩
    obtain ⟨fits, rfl⟩ := spellsDocument_three_iff.mp hfront
    exact ⟨decode_encode fits rest, List.prefix_append _ rest⟩

/-- The bytes of a document with one box, whose first alignment has the index three. -/
def strayAlignment : Bytes :=
  magic ++ encodeHeader ⟨1, 400, 800, .zero⟩ ++ encodeLength 0 ++ encodeLength 1 ++
    encodeIndex 4 ++ encodeLength 0 ++ encodeIndex 3 ++ encodeIndex 2

/-- An index that stands for no alignment is read as the center, so these bytes are decoded, and no
encoding of what they are decoded as. -/
theorem decode_strayAlignment :
    ∃ d : Document, decode strayAlignment = .ok d ∧
      d.operations = [.boxStart [] .center .center] ∧ ¬ d.encode <+: strayAlignment :=
  ⟨⟨⟨1, 400, 800, .zero⟩, [], [.boxStart [] .center .center]⟩, by decide +kernel, rfl,
    by decide +kernel⟩

end LayoutCompiler.Document
