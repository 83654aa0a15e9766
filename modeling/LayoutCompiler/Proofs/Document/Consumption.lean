import LayoutCompiler.Proofs.Document.Size
import LayoutCompiler.Proofs.Document.Tracing
import LayoutCompiler.Proofs.Document.Truncation
import Mathlib.Algebra.BigOperators.Ring.List

/-
How far decoding gets. Bytes announce texts, operations and modifiers by numbers of
eight bytes, and these may be far beyond what follows them. Traced decoders of all
components show what that leads to: no bytes are read as more items than a quarter of
their number, and if they announce more than they hold, decoding fails
(`decode_within_bytes`).
-/

namespace LayoutCompiler.Document

/-! ### Traced components -/

def tracedText : Traced String := do
  let n ← tracedLength .textBytes
  let bytes ← untraced (takeBytes .endInText n)
  match Text.Utf8.decode bytes with
  | .ok cs => return String.ofList cs
  | .error fault => untraced (throw (.invalidText fault))

def tracedModifiers : Traced (List Modifier) :=
  tracedList .modifiers (untraced decodeModifier)

/-- An operation that has modifiers in front of everything else. -/
def tracedModified (next : List Modifier → Decoder Operation) : Traced Operation := do
  let modifiers ← tracedModifiers
  untraced (next modifiers)

def tracedOperation : Traced Operation := do
  match ← untraced decodeIndex with
  | 0 => return .rootStart
  | 1 => return .rootEnd
  | 2 => tracedModified fun modifiers => do
    return .columnStart modifiers (← decodeAlignment) (← decodeArrangement)
  | 3 => tracedModified fun modifiers => do
    return .rowStart modifiers (← decodeArrangement) (← decodeAlignment)
  | 4 => tracedModified fun modifiers => do
    return .boxStart modifiers (← decodeAlignment) (← decodeAlignment)
  | 5 => return .containerEnd
  | 6 => tracedModified fun modifiers => do
    return .text ⟨modifiers, ← decodeWord, ← decodeColor, ← decodeSingle, ← decodeSingle,
      ← decodeTextAlign⟩
  | index => untraced (throw (.unknownIndex index 7))

def tracedBody : Traced Document := do
  let header ← untraced decodeHeader
  let texts ← tracedList .texts tracedText
  let operations ← tracedList .operations tracedOperation
  return ⟨header, texts, operations⟩

/-- The outcome of decoding, and the notes that were taken on the way to it. -/
def decodeTraced (bytes : Bytes) : Except DecodeError Document × List Note :=
  if bytes.take magic.length = magic then
    let (outcome, notes) := tracedBody (bytes.drop magic.length)
    (outcome.map Prod.fst, notes)
  else (.error .badMagic, [])

/-! ### Texts and modifiers -/

theorem traces_text :
    Traces tracedText decodeText fun s k t => k = 0 ∧ 8 + s.utf8ByteSize ≤ t := by
  refine .announced .textBytes fun n => ?_
  refine (Traces.untraced (takes_bytes (by decide : DecodeError.endInText ≠ _) n)).bind ?_
  rintro _ _ _ ⟨rfl, front, ⟨rfl, rfl⟩, rfl⟩
  cases hcs : Text.Utf8.decode front with
  | ok cs =>
    have hsize : (String.ofList cs).utf8ByteSize = front.length := by
      rw [← Text.Utf8.length_encode, String.toList_ofList, Text.Utf8.encode_of_decode hcs]
    refine .pure ⟨?_, rfl, ?_⟩
    · rw [Counted.least, Nat.one_mul, Nat.add_zero]
    · rw [hsize, Nat.add_zero]
  | error fault => exact .throw _

theorem traces_texts :
    Traces (tracedList .texts tracedText) (decodeList decodeText) fun l k t =>
      k = l.length ∧ 8 + (l.map fun s => 8 + s.utf8ByteSize).sum ≤ t := by
  have htext : Traces tracedText decodeText
      fun s k t => k = (fun _ => 0) s ∧ (fun s : String => 8 + s.utf8ByteSize) s ≤ t := traces_text
  refine (traces_list htext (fun s => ?_) .texts fun s => Nat.le_add_right 8 _).mono ?_
  · omega
  · rintro l k t ⟨rfl, ht⟩
    rw [List.map_const', List.sum_replicate_nat]
    exact ⟨rfl, ht⟩

theorem traces_modifiers :
    Traces tracedModifiers decodeModifiers fun l k t => k = l.length ∧ 8 + 4 * l.length ≤ t := by
  have hmodifier : Traces (untraced decodeModifier) decodeModifier
      fun m k t => k = (fun _ => 0) m ∧ (fun _ => 4) m ≤ t := by
    refine (Traces.untraced takes_modifier).mono ?_
    rintro m k _ ⟨rfl, _, rfl, rfl⟩
    exact ⟨rfl, four_le_length_encodeModifier m⟩
  refine (traces_list hmodifier (fun _ => Nat.le_refl 4) .modifiers fun _ => Nat.le_refl 4).mono ?_
  rintro l k t ⟨rfl, ht⟩
  rw [List.map_const', List.sum_replicate_nat] at ht ⊢
  omega

/-! ### Operations -/

/-- What an operation spends: its modifiers are the items in it, and each of them takes four bytes
at least, as the operation itself does. -/
def OperationSpends (op : Operation) (k t : Nat) : Prop :=
  k = op.modifiers.length ∧ 4 * (op.modifiers.length + 1) ≤ t

theorem traces_modified {next : List Modifier → Decoder Operation}
    (h : ∀ modifiers, Takes (next modifiers) fun op _ => op.modifiers = modifiers) :
    Traces (tracedModified next) (decodeModifiers >>= next)
      fun op k t => OperationSpends op (0 + k) (4 + t) := by
  refine traces_modifiers.bind fun modifiers k t hmodifiers => ?_
  refine (Traces.untraced (h modifiers)).mono ?_
  rintro op _ u ⟨rfl, _, rfl, -⟩
  obtain ⟨rfl, ht⟩ := hmodifiers
  refine ⟨Nat.zero_add _, ?_⟩
  omega

theorem traces_operation : Traces tracedOperation decodeOperation OperationSpends := by
  refine (Traces.untraced takes_index).bind ?_
  rintro index _ _ ⟨rfl, _, ⟨rfl, -⟩, rfl⟩
  rw [encodeIndex, length_littleEndian]
  have hcases : index = 0 ∨ index = 1 ∨ index = 2 ∨ index = 3 ∨ index = 4 ∨ index = 5 ∨
      index = 6 ∨ 7 ≤ index := by omega
  rcases hcases with rfl | rfl | rfl | rfl | rfl | rfl | rfl | hunknown
  · exact .pure ⟨rfl, Nat.le_refl 4⟩
  · exact .pure ⟨rfl, Nat.le_refl 4⟩
  · exact traces_modified fun _ => takes_alignment.bind fun _ _ _ =>
      takes_arrangement.map fun _ _ _ => rfl
  · exact traces_modified fun _ => takes_arrangement.bind fun _ _ _ =>
      takes_alignment.map fun _ _ _ => rfl
  · exact traces_modified fun _ => takes_alignment.bind fun _ _ _ =>
      takes_alignment.map fun _ _ _ => rfl
  · exact .pure ⟨rfl, Nat.le_refl 4⟩
  · exact traces_modified fun _ => takes_word.bind fun _ _ _ => takes_color.bind fun _ _ _ =>
      takes_single.bind fun _ _ _ => takes_single.bind fun _ _ _ =>
        takes_textAlign.map fun _ _ _ => rfl
  · obtain ⟨k, rfl⟩ := Nat.exists_eq_add_of_le' hunknown
    exact .throw _

theorem traces_operations :
    Traces (tracedList .operations tracedOperation) (decodeList decodeOperation) fun l k t =>
      k = l.length + (l.map fun op => op.modifiers.length).sum ∧
        8 + 4 * (l.length + (l.map fun op => op.modifiers.length).sum) ≤ t := by
  have hoperation : Traces tracedOperation decodeOperation fun op k t =>
      k = (fun op : Operation => op.modifiers.length) op ∧
        (fun op : Operation => 4 * (op.modifiers.length + 1)) op ≤ t := traces_operation
  refine (traces_list hoperation (fun op => Nat.le_refl _) .operations fun op => ?_).mono ?_
  · exact Nat.le_mul_of_pos_right 4 (Nat.succ_pos _)
  · rintro l k t ⟨rfl, ht⟩
    rw [List.sum_map_mul_left, List.sum_map_add, List.map_const', List.sum_replicate_nat] at ht
    refine ⟨rfl, ?_⟩
    omega

/-! ### Documents -/

/-- The number of items in all lists of a document. -/
def itemTotal (d : Document) : Nat :=
  d.texts.length + d.operations.length + (d.operations.map fun op => op.modifiers.length).sum

/-- The bytes that a document takes at least: magic and header, the number of texts, each text with
its length, the number of operations, and the indices of operations and modifiers. -/
def leastBytes (d : Document) : Nat :=
  18 + 8 + (d.texts.map fun s => 8 + s.utf8ByteSize).sum + 8 +
    4 * (d.operations.length + (d.operations.map fun op => op.modifiers.length).sum)

theorem length_encodeHeader (h : Header) : (encodeHeader h).length = 14 := by
  simp [encodeHeader, encodeSingle, encodeWord, length_littleEndian]

theorem traces_body :
    Traces tracedBody decodeBody fun d k t => k = d.itemTotal ∧ d.leastBytes ≤ 4 + t := by
  refine (Traces.untraced takes_header).bind ?_
  rintro header _ _ ⟨rfl, _, rfl, rfl⟩
  refine traces_texts.bind ?_
  rintro texts _ t ⟨rfl, ht⟩
  refine traces_operations.map ?_
  rintro operations _ u ⟨rfl, hu⟩
  rw [length_encodeHeader, itemTotal, leastBytes]
  constructor
  · rw [Nat.zero_add, Nat.add_assoc]
  · dsimp only
    omega

theorem decodeTraced_append (body : Bytes) :
    decodeTraced (magic ++ body) = ((tracedBody body).1.map Prod.fst, (tracedBody body).2) := by
  rw [decodeTraced, List.take_left, List.drop_left, if_pos rfl]

theorem decode_append (body : Bytes) :
    decode (magic ++ body) = (tracedBody body).1.map Prod.fst := by
  rw [decode, List.take_left, List.drop_left, if_pos rfl, (traces_body body).1]

theorem decodeTraced_of_not_magic {bytes : Bytes} (h : ¬ magic <+: bytes) :
    decodeTraced bytes = (.error .badMagic, []) := by
  rw [decodeTraced, if_neg]
  intro htake
  exact h (htake ▸ List.take_prefix _ _)

/-! ### Bounds -/

theorem takes_eight_of_text : Takes decodeText fun _ front => 8 ≤ front.length := by
  refine takes_text.mono ?_
  rintro s _ ⟨rfl, -⟩
  rw [length_encodeText]
  exact Nat.le_add_right 8 _

theorem takes_four_of_operation : Takes decodeOperation fun _ front => 4 ≤ front.length := by
  refine takes_operation.mono fun op front h => ?_
  cases h with
  | text => exact four_le_length_encodeOperation _
  | rootStart | rootEnd | containerEnd | columnStart | rowStart | boxStart =>
    simp [encodeIndex, length_littleEndian]

theorem takes_four_of_modifier : Takes decodeModifier fun _ front => 4 ≤ front.length := by
  refine takes_modifier.mono ?_
  rintro m _ rfl
  exact four_le_length_encodeModifier m

/-- **Bytes cannot make decoding outrun them.** Whatever numbers they announce, every item of a list
takes four of them at least, and at most a quarter of their number is read as items of lists, also
if decoding fails in the end. It does fail, and not for the magic, if a number was read that
announces more than there can be behind it. If it does not fail, the items that were read are those
of the document, and there are no fewer bytes than these take at least. -/
theorem decode_within_bytes (bytes : Bytes) :
    (decodeTraced bytes).1 = decode bytes ∧
    (Takes decodeText (fun _ front => 8 ≤ front.length) ∧
      Takes decodeOperation (fun _ front => 4 ≤ front.length) ∧
      Takes decodeModifier fun _ front => 4 ≤ front.length) ∧
    itemCount (decodeTraced bytes).2 ≤ bytes.length / 4 ∧
    (∀ what count left, .announced what count left ∈ (decodeTraced bytes).2 →
      encodeLength count ++ left <:+ bytes ∧
      (left.length < what.least * count → ∃ e, decode bytes = .error e ∧ e ≠ .badMagic)) ∧
    ∀ d, decode bytes = .ok d →
      itemCount (decodeTraced bytes).2 = d.itemTotal ∧ d.leastBytes ≤ bytes.length := by
  have htakes := And.intro takes_eight_of_text
    (And.intro takes_four_of_operation takes_four_of_modifier)
  by_cases hmagic : magic <+: bytes
  · have hrefused := decode_ne_badMagic hmagic
    obtain ⟨body, rfl⟩ := hmagic
    obtain ⟨-, hrun⟩ := traces_body body
    rw [decode_append] at hrefused
    rw [decodeTraced_append, decode_append]
    generalize tracedBody body = run at hrun hrefused ⊢
    have hlength : (magic ++ body).length = 4 + body.length := List.length_append
    rw [hlength]
    refine ⟨rfl, htakes, ?_, fun what count left hn => ⟨?_, fun hshort => ?_⟩, fun d hd => ?_⟩
    · have hcount := hrun.four_mul_itemCount_le
      rw [Nat.le_div_iff_mul_le (Nat.succ_pos 3), Nat.mul_comm]
      exact hcount.trans (Nat.le_add_left _ 4)
    · exact List.IsSuffix.trans (hrun.isIn _ hn) (List.suffix_append magic body)
    · cases hrun with
      | ok _ hnotes =>
        have hcovered : what.least * count ≤ left.length := (hnotes _ hn).2
        omega
      | @error e => exact ⟨e, rfl, fun he => hrefused (congrArg Except.error he)⟩
    · cases hrun with
      | ok hbody _ _ hspends =>
        cases hd
        have htaken := congrArg List.length hbody
        rw [List.length_append] at htaken
        refine ⟨hspends.1, hspends.2.trans ?_⟩
        omega
      | error => cases hd
  · rw [decodeTraced_of_not_magic hmagic, (decode_eq_badMagic_iff bytes).mpr hmagic]
    exact ⟨rfl, htakes, Nat.zero_le _, by simp, by simp⟩

/-- The bytes of a document with one text that announce as many operations as eight bytes can, and
for the second operation as many modifiers. They end behind the first one of these. -/
def forged : Bytes :=
  magic ++ encodeHeader ⟨1, 400, 800, .zero⟩ ++ encodeLength 1 ++ encodeText "é" ++
    encodeLength (2 ^ 64 - 1) ++ encodeIndex 0 ++ encodeIndex 4 ++ encodeLength (2 ^ 64 - 1) ++
    encodeIndex 0

/-- Forged numbers of operations and of modifiers are refused, after one text, one operation and one
modifier were read; a document that announces what it holds is decoded. -/
theorem decode_within_bytes_forged :
    .announced .operations (2 ^ 64 - 1) (forged.drop 44) ∈ (decodeTraced forged).2 ∧
    (forged.drop 44).length < Counted.operations.least * (2 ^ 64 - 1) ∧
    .announced .modifiers (2 ^ 64 - 1) (forged.drop 60) ∈ (decodeTraced forged).2 ∧
    (forged.drop 60).length < Counted.modifiers.least * (2 ^ 64 - 1) ∧
    encodeLength (2 ^ 64 - 1) ++ forged.drop 60 <:+ forged ∧
    (∃ e, decode forged = .error e ∧ e ≠ .badMagic) ∧
    itemCount (decodeTraced forged).2 = 3 ∧ 3 ≤ forged.length / 4 ∧
    decode unnested.encode = .ok unnested ∧ unnested.itemTotal = 6 ∧
    unnested.leastBytes ≤ unnested.encode.length := by
  obtain ⟨-, -, hcount, hannounced, -⟩ := decode_within_bytes forged
  have hoperations : .announced .operations (2 ^ 64 - 1) (forged.drop 44) ∈
      (decodeTraced forged).2 := by decide +kernel
  have hmodifiers : .announced .modifiers (2 ^ 64 - 1) (forged.drop 60) ∈
      (decodeTraced forged).2 := by decide +kernel
  have hitems : itemCount (decodeTraced forged).2 = 3 := by decide +kernel
  have hmanyOperations : (forged.drop 44).length < Counted.operations.least * (2 ^ 64 - 1) := by
    decide +kernel
  have hmanyModifiers : (forged.drop 60).length < Counted.modifiers.least * (2 ^ 64 - 1) := by
    decide +kernel
  obtain ⟨-, hrefused⟩ := hannounced _ _ _ hoperations
  obtain ⟨hin, -⟩ := hannounced _ _ _ hmodifiers
  have hdecode : decode unnested.encode = .ok unnested := by decide +kernel
  obtain ⟨-, -, -, -, hdocument⟩ := decode_within_bytes unnested.encode
  exact ⟨hoperations, hmanyOperations, hmodifiers, hmanyModifiers, hin, hrefused hmanyOperations,
    hitems, hitems ▸ hcount, hdecode, rfl, (hdocument unnested hdecode).2⟩

end LayoutCompiler.Document
