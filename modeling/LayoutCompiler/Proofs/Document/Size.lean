import LayoutCompiler.Proofs.Document.RoundTrip
import Mathlib.Algebra.Order.BigOperators.Group.List
import Mathlib.Algebra.Order.Ring.Nat

/-
How many bytes the parts of a document take. Every operation and every modifier takes at
least the four bytes of its index, and a list no fewer than each of its items. So all
lengths of a document are at most its number of bytes, and a document whose bytes can be
counted in eight bytes is read back from them (`decode_encode_of_length`).
-/

namespace LayoutCompiler.Document

section Lists

variable {α : Type} {encode : α → Bytes} {l : List α}

theorem length_encodeList (encode : α → Bytes) (l : List α) :
    (encodeList encode l).length = 8 + (l.map fun a => (encode a).length).sum := by
  rw [encodeList, List.length_append, List.length_flatMap, encodeLength, length_littleEndian]

theorem length_le_of_mem_list {a : α} (h : a ∈ l) :
    (encode a).length ≤ (encodeList encode l).length := by
  have hitem := List.single_le_sum (fun _ _ => Nat.zero_le _) (encode a).length
    (List.mem_map_of_mem (f := fun a => (encode a).length) h)
  rw [length_encodeList]
  omega

/-- A list of items that take some bytes each has no more items than bytes. -/
theorem length_le_length_encodeList (h : ∀ a ∈ l, 4 ≤ (encode a).length) :
    l.length ≤ (encodeList encode l).length := by
  have hitems := List.card_nsmul_le_sum (l.map fun a => (encode a).length) 4
    (List.forall_mem_map.mpr h)
  rw [List.length_map, Nat.nsmul_eq_mul] at hitems
  rw [length_encodeList]
  omega

end Lists

theorem length_encodeText (s : String) : (encodeText s).length = 8 + s.utf8ByteSize := by
  rw [encodeText, List.length_append, encodeLength, length_littleEndian, Text.Utf8.length_encode]

theorem four_le_length_encodeModifier (m : Modifier) : 4 ≤ (encodeModifier m).length := by
  cases m <;> simp [encodeModifier, encodeIndex, length_littleEndian]

theorem four_le_length_encodeOperation (op : Operation) : 4 ≤ (encodeOperation op).length := by
  cases op <;> simp [encodeOperation, encodeIndex, length_littleEndian]

theorem length_encodeModifiers_le (op : Operation) (h : op.modifiers ≠ []) :
    (encodeModifiers op.modifiers).length ≤ (encodeOperation op).length := by
  cases op with
  | rootStart | rootEnd | containerEnd => exact absurd rfl h
  | columnStart | rowStart | boxStart | text =>
    simp only [Operation.modifiers, encodeOperation, List.length_append]
    omega

theorem length_modifiers_le (op : Operation) :
    op.modifiers.length ≤ (encodeOperation op).length := by
  by_cases h : op.modifiers = []
  · simp [h]
  · have hitems := length_le_length_encodeList
      (fun m (_ : m ∈ op.modifiers) => four_le_length_encodeModifier m)
    exact Nat.le_trans hitems (length_encodeModifiers_le op h)

/-- No length of a document exceeds its number of bytes. -/
theorem fitsLengths_of_length {d : Document} (h : d.encode.length < 2 ^ 64) : d.FitsLengths := by
  have hparts : (encodeList encodeText d.texts).length +
      (encodeList encodeOperation d.operations).length ≤ d.encode.length := by
    rw [encode, List.length_append, List.length_append]
    omega
  have htexts : d.texts.length ≤ (encodeList encodeText d.texts).length :=
    length_le_length_encodeList fun s _ => by rw [length_encodeText]; omega
  have hoperations := length_le_length_encodeList
    (fun op (_ : op ∈ d.operations) => four_le_length_encodeOperation op)
  refine ⟨by omega, fun s hs => ?_, by omega, fun op hop => ?_⟩
  · have htext : (encodeText s).length ≤ (encodeList encodeText d.texts).length :=
      length_le_of_mem_list hs
    rw [length_encodeText] at htext
    omega
  · have hoperation : (encodeOperation op).length ≤
        (encodeList encodeOperation d.operations).length := length_le_of_mem_list hop
    have hmodifiers := length_modifiers_le op
    omega

theorem decode_encode_of_length {d : Document} (h : d.encode.length < 2 ^ 64) :
    decode d.encode = .ok d := by
  have hread := decode_encode (fitsLengths_of_length h) []
  rwa [List.append_nil] at hread

end LayoutCompiler.Document
