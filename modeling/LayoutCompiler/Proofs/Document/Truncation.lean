import LayoutCompiler.Proofs.Document.Spelling

/-
Documents that have been cut off. A decoder is stable if bytes that arrive later change
nothing that it has decided: the value it has given, and the error it has met unless the
bytes had run out (`Stable`). All decoders are, as decoders that run one after another
are if each of them is. So what is cut off from the end of an encoding would have to be
left over where the whole of it is decoded, and nothing is; a part of an encoding can
only fail for its end (`decode_truncated`).
-/

namespace LayoutCompiler.Document

/-- Whether an error says that the bytes have run out. -/
def DecodeError.isEnd : DecodeError → Bool
  | endInNumber | endInText => true
  | badMagic | unknownIndex _ _ | invalidText _ => false

/-- Bytes that follow later change neither a value nor an error, unless the error was that the bytes
had run out. -/
structure Stable {α : Type} (decode : Decoder α) : Prop where
  ok : ∀ {bytes a left}, decode bytes = .ok (a, left) →
    ∀ rest, decode (bytes ++ rest) = .ok (a, left ++ rest)
  error : ∀ {bytes e}, decode bytes = .error e → e.isEnd = false →
    ∀ rest, decode (bytes ++ rest) = .error e

section Stable

variable {α β : Type} {decode : Decoder α} {next : α → Decoder β}

theorem Stable.pure (a : α) : Stable (pure a) where
  ok := by
    rintro bytes _ _ ⟨⟩ rest
    rfl
  error := by
    rintro bytes e ⟨⟩

theorem Stable.throw (e : DecodeError) : Stable (throw e : Decoder α) where
  ok := by
    rintro bytes _ _ ⟨⟩
  error := by
    rintro bytes _ ⟨⟩ - rest
    rfl

/-- Decoders that run one after another are stable if each of them is. -/
theorem Stable.bind (first : Stable decode) (second : ∀ a, Stable (next a)) :
    Stable (decode >>= next) where
  ok {bytes b left} h rest := by
    obtain ⟨⟨a, mid⟩, hfirst, hsecond⟩ := Outcome.exists_of_bind_eq_ok h
    show (decode (bytes ++ rest) >>= fun (a, mid) => next a mid) = _
    rw [first.ok hfirst]
    exact (second a).ok hsecond rest
  error {bytes e} h hend rest := by
    change (decode bytes >>= fun (a, mid) => next a mid) = _ at h
    show (decode (bytes ++ rest) >>= fun (a, mid) => next a mid) = _
    cases hfirst : decode bytes with
    | error e' =>
      rw [hfirst] at h
      cases h
      rw [first.error hfirst hend]
      rfl
    | ok result =>
      obtain ⟨a, mid⟩ := result
      rw [hfirst] at h
      rw [first.ok hfirst]
      exact (second a).error h hend rest

theorem Stable.map (f : α → β) (first : Stable decode) :
    Stable (do let a ← decode; return f a) :=
  first.bind fun a => .pure (f a)

theorem stable_takeBytes {short : DecodeError} (hshort : short.isEnd) (n : Nat) :
    Stable (takeBytes short n) where
  ok {bytes taken left} h rest := by
    simp only [takeBytes] at h ⊢
    split at h
    · cases h
    · next hlength =>
      cases h
      have hle : n ≤ bytes.length := by
        rw [List.length_take] at hlength
        omega
      rw [List.take_append_of_le_length hle, List.drop_append_of_le_length hle, if_neg hlength]
  error {bytes e} h hend := by
    simp only [takeBytes] at h
    split at h
    · cases h
      rw [hshort] at hend
      cases hend
    · cases h

theorem stable_number (width : Nat) : Stable (decodeNumber width) :=
  (stable_takeBytes rfl width).map ofLittleEndian

theorem stable_word : Stable decodeWord :=
  (stable_number 4).map UInt32.ofNat

theorem stable_index : Stable decodeIndex :=
  stable_number 4

theorem stable_items (item : Stable decode) (n : Nat) : Stable (decodeItems decode n) := by
  induction n with
  | zero => exact .pure []
  | succ n ih => exact item.bind fun a => ih.map (a :: ·)

theorem stable_list (item : Stable decode) : Stable (decodeList decode) :=
  (stable_number 8).bind (stable_items item)

end Stable

/-! ### Components -/

theorem stable_text : Stable decodeText := by
  refine (stable_number 8).bind fun n => (stable_takeBytes rfl n).bind fun bytes => ?_
  split
  · exact .pure _
  · exact .throw _

theorem stable_single : Stable decodeSingle :=
  stable_word.map Number.Single.mk

theorem stable_color : Stable decodeColor :=
  stable_word.map Color.mk

theorem stable_alignment : Stable decodeAlignment :=
  stable_index.map _

theorem stable_arrangement : Stable decodeArrangement := by
  refine stable_index.bind fun index => ?_
  split
  · exact .pure _
  · exact .pure _
  · exact .pure _
  · exact .pure _
  · exact .throw _

theorem stable_textAlign : Stable decodeTextAlign := by
  refine stable_index.bind fun index => ?_
  split
  · exact .pure _
  · exact .pure _
  · exact .throw _

theorem stable_outline : Stable decodeOutline := by
  refine stable_index.bind fun index => ?_
  split
  · exact .pure _
  · exact stable_single.map _
  · exact .throw _

theorem stable_padding : Stable decodePadding :=
  stable_single.bind fun _ => stable_single.bind fun _ => stable_single.bind fun _ =>
    stable_single.map _

theorem stable_border : Stable decodeBorder :=
  stable_single.bind fun _ => stable_color.bind fun _ => stable_outline.map _

theorem stable_onClick : Stable decodeOnClick :=
  stable_word.bind fun _ => stable_word.map _

theorem stable_modifier : Stable decodeModifier := by
  refine stable_index.bind fun index => ?_
  split
  · exact .pure _
  · exact .pure _
  · exact stable_color.map _
  · exact .pure _
  · exact stable_padding
  · exact stable_single.map _
  · exact stable_outline.map _
  · exact stable_border
  · exact stable_onClick
  · exact .throw _

theorem stable_modifiers : Stable decodeModifiers :=
  stable_list stable_modifier

theorem stable_textRun : Stable decodeTextRun :=
  stable_modifiers.bind fun _ => stable_word.bind fun _ => stable_color.bind fun _ =>
    stable_single.bind fun _ => stable_single.bind fun _ => stable_textAlign.map _

theorem stable_operation : Stable decodeOperation := by
  refine stable_index.bind fun index => ?_
  split
  · exact .pure _
  · exact .pure _
  · exact stable_modifiers.bind fun _ => stable_alignment.bind fun _ => stable_arrangement.map _
  · exact stable_modifiers.bind fun _ => stable_arrangement.bind fun _ => stable_alignment.map _
  · exact stable_modifiers.bind fun _ => stable_alignment.bind fun _ => stable_alignment.map _
  · exact .pure _
  · exact stable_textRun
  · exact .throw _

theorem stable_header : Stable decodeHeader :=
  (stable_number 2).bind fun _ => stable_word.bind fun _ => stable_word.bind fun _ =>
    stable_single.map _

theorem stable_body : Stable decodeBody :=
  stable_header.bind fun _ => (stable_list stable_text).bind fun _ =>
    (stable_list stable_operation).map _

/-! ### Parts of encodings -/

/-- What is read as a whole cannot be read when its end is missing, and fails for nothing else. -/
theorem Stable.error_of_reads {α : Type} {decode : Decoder α} (h : Stable decode)
    {bytes missing : Bytes} {a : α} (hreads : Reads decode (bytes ++ missing) a)
    (hmissing : missing ≠ []) : ∃ e, decode bytes = .error e ∧ e.isEnd := by
  have hwhole := hreads []
  rw [List.append_nil] at hwhole
  cases hpart : decode bytes with
  | ok result =>
    obtain ⟨a', left⟩ := result
    rw [h.ok hpart] at hwhole
    have hnothing : left ++ missing = [] := congrArg Prod.snd (Except.ok.inj hwhole)
    exact absurd (List.append_eq_nil_iff.mp hnothing).2 hmissing
  | error e =>
    refine ⟨e, rfl, ?_⟩
    cases hend : e.isEnd with
    | true => rfl
    | false =>
      rw [h.error hpart hend] at hwhole
      cases hwhole

/-- Bytes fail for the magic if and only if they do not begin with it. -/
theorem decode_eq_badMagic_iff (bytes : Bytes) :
    decode bytes = .error .badMagic ↔ ¬ magic <+: bytes := by
  constructor
  · intro h hmagic
    exact decode_ne_badMagic hmagic h
  · intro hmagic
    rw [decode, if_neg]
    intro htake
    exact hmagic (htake ▸ List.take_prefix _ _)

/-- **Documents that have been cut off are refused.** If anything is missing at the end of an
encoding, it is not decoded: it has no magic if less than that is left, and otherwise it ends inside
of a number or of a text. Bytes fail for the magic if and only if they do not begin with it. -/
theorem decode_truncated :
    (∀ d : Document, d.FitsLengths → ∀ part missing, d.encode = part ++ missing → missing ≠ [] →
      (part.length < magic.length → decode part = .error .badMagic) ∧
      (magic.length ≤ part.length →
        decode part = .error .endInNumber ∨ decode part = .error .endInText)) ∧
    ∀ bytes, decode bytes = .error .badMagic ↔ ¬ magic <+: bytes := by
  refine ⟨fun d fits part missing hpart hmissing => ⟨fun hshort => ?_, fun hlong => ?_⟩,
    decode_eq_badMagic_iff⟩
  · rw [decode_eq_badMagic_iff]
    intro hmagic
    exact absurd hmagic.length_le (Nat.not_le.mpr hshort)
  · have hmagic : magic <+: part := by
      refine List.prefix_of_prefix_length_le ?_ (List.prefix_append part missing) hlong
      rw [← hpart, encode, List.append_assoc, List.append_assoc]
      exact List.prefix_append magic _
    obtain ⟨body, rfl⟩ := hmagic
    have hbody : encodeHeader d.header ++ (encodeList encodeText d.texts ++
        encodeList encodeOperation d.operations) = body ++ missing := by
      rw [encode, List.append_assoc, List.append_assoc, List.append_assoc] at hpart
      exact List.append_cancel_left hpart
    obtain ⟨e, hdecode, hend⟩ := stable_body.error_of_reads (hbody ▸ reads_body fits) hmissing
    rw [decode, List.take_left, List.drop_left, if_pos rfl, hdecode]
    cases e with
    | endInNumber => exact .inl rfl
    | endInText => exact .inr rfl
    | badMagic | unknownIndex | invalidText => cases hend

/-- A document that is cut off inside of its magic, and between its two operations. -/
theorem decode_truncated_unnested :
    unnested.FitsLengths ∧ unnested.encode.drop 3 ≠ [] ∧ unnested.encode.drop 60 ≠ [] ∧
      unnested.encode.drop 56 = encodeIndex 5 ++ unnested.encode.drop 60 ∧
      decode (unnested.encode.take 3) = .error .badMagic ∧
      (decode (unnested.encode.take 60) = .error .endInNumber ∨
        decode (unnested.encode.take 60) = .error .endInText) := by
  have fits : unnested.FitsLengths := by decide
  have hmagic : unnested.encode.drop 3 ≠ [] := by decide +kernel
  have hoperation : unnested.encode.drop 60 ≠ [] := by decide +kernel
  obtain ⟨hcut, -⟩ := decode_truncated
  have hshort := hcut unnested fits _ _ (List.take_append_drop 3 unnested.encode).symm hmagic
  have hlong := hcut unnested fits _ _ (List.take_append_drop 60 unnested.encode).symm hoperation
  exact ⟨fits, hmagic, hoperation, by decide +kernel, hshort.1 (by decide +kernel),
    hlong.2 (by decide +kernel)⟩

end LayoutCompiler.Document
