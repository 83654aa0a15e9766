import LayoutCompiler.Text.Utf8

/-
UTF-8 reads back what it wrote, and accepts nothing else. The table of first bytes is
met case by case: the ranges that it narrows are those of overlong forms, of surrogates
and of numbers beyond the last code point, and no character is one of these. So decoding
takes every encoded character off the front of the bytes (`decodeFrom_encodeChar`), and
hence all of a text (`decode_encode`). The same ranges leave each character one form
only, so bytes that are decoded are those of the characters (`encode_of_decode`).
-/

namespace LayoutCompiler.Text.Utf8

/-! ### First bytes -/

/-- The table of first bytes, with the ranges as numbers. -/
theorem Lead.of?_eq (b : UInt8) :
    Lead.of? b =
      if 0xC2 ≤ b.toNat ∧ b.toNat ≤ 0xDF then some ⟨1, 0x80, 0xBF, b.toNat - 0xC0⟩
      else if b.toNat = 0xE0 then some ⟨2, 0xA0, 0xBF, 0⟩
      else if b.toNat = 0xED then some ⟨2, 0x80, 0x9F, 0x0D⟩
      else if 0xE1 ≤ b.toNat ∧ b.toNat ≤ 0xEF then some ⟨2, 0x80, 0xBF, b.toNat - 0xE0⟩
      else if b.toNat = 0xF0 then some ⟨3, 0x90, 0xBF, 0⟩
      else if 0xF1 ≤ b.toNat ∧ b.toNat ≤ 0xF3 then some ⟨3, 0x80, 0xBF, b.toNat - 0xF0⟩
      else if b.toNat = 0xF4 then some ⟨3, 0x80, 0x8F, 4⟩
      else none := by
  simp only [Lead.of?, UInt8.le_iff_toNat_le, ← UInt8.toNat_inj, UInt8.reduceToNat]

/-- The first byte of two. -/
theorem Lead.of?_two {b : UInt8} {high : Nat} (hb : b.toNat = high + 0xC0) (hlo : 2 ≤ high)
    (hhi : high < 32) : Lead.of? b = some ⟨1, 0x80, 0xBF, high⟩ := by
  rw [Lead.of?_eq, if_pos (by omega), hb, Nat.add_sub_cancel]

/-- The first byte of three admits every second byte but those that begin an overlong form or a
surrogate. -/
theorem Lead.of?_three {b b1 : UInt8} {high mid : Nat} (hb : b.toNat = high + 0xE0)
    (hhigh : high < 16) (hb1 : b1.toNat = mid + 0x80) (hmid : mid < 64)
    (overlong : high = 0 → 32 ≤ mid) (surrogate : high = 13 → mid < 32) :
    ∃ lead, Lead.of? b = some lead ∧ lead.following = 2 ∧ lead.low ≤ b1 ∧ b1 ≤ lead.high ∧
      lead.value = high := by
  simp only [UInt8.le_iff_toNat_le]
  rw [Lead.of?_eq, if_neg (by omega)]
  by_cases h0 : high = 0
  · have := overlong h0
    rw [if_pos (by omega)]
    exact ⟨_, rfl, rfl, by simp; omega, by simp; omega, h0.symm⟩
  · rw [if_neg (by omega)]
    by_cases h13 : high = 13
    · have := surrogate h13
      rw [if_pos (by omega)]
      exact ⟨_, rfl, rfl, by simp; omega, by simp; omega, h13.symm⟩
    · rw [if_neg (by omega), if_pos (by omega)]
      exact ⟨_, rfl, rfl, by simp; omega, by simp; omega, by simp; omega⟩

/-- The first byte of four admits every second byte but those that begin an overlong form or a
number beyond the last code point. -/
theorem Lead.of?_four {b b1 : UInt8} {high mid : Nat} (hb : b.toNat = high + 0xF0)
    (hhigh : high ≤ 4) (hb1 : b1.toNat = mid + 0x80) (hmid : mid < 64)
    (overlong : high = 0 → 16 ≤ mid) (beyond : high = 4 → mid < 16) :
    ∃ lead, Lead.of? b = some lead ∧ lead.following = 3 ∧ lead.low ≤ b1 ∧ b1 ≤ lead.high ∧
      lead.value = high := by
  simp only [UInt8.le_iff_toNat_le]
  rw [Lead.of?_eq, if_neg (by omega), if_neg (by omega), if_neg (by omega), if_neg (by omega)]
  by_cases h0 : high = 0
  · have := overlong h0
    rw [if_pos (by omega)]
    exact ⟨_, rfl, rfl, by simp; omega, by simp; omega, h0.symm⟩
  · rw [if_neg (by omega)]
    by_cases h4 : high = 4
    · have := beyond h4
      rw [if_neg (by omega), if_pos (by omega)]
      exact ⟨_, rfl, rfl, by simp; omega, by simp; omega, h4.symm⟩
    · rw [if_pos (by omega)]
      exact ⟨_, rfl, rfl, by simp; omega, by simp; omega, by simp; omega⟩

theorem isContinuation_of_toNat {b : UInt8} {n : Nat} (hb : b.toNat = n + 0x80) (hn : n < 64) :
    isContinuation b = true := by
  simp only [isContinuation, Bool.and_eq_true, decide_eq_true_eq, UInt8.le_iff_toNat_le]
  simp
  omega

theorem extend_of_toNat {b : UInt8} {n : Nat} (value : Nat) (hb : b.toNat = n + 0x80) :
    extend value b = value * 64 + n := by
  unfold extend
  omega

/-- The byte of a number that fits one. -/
theorem toNat_ofNat {n : Nat} (h : n < 256) : (UInt8.ofNat n).toNat = n := by
  rw [UInt8.toNat_ofNat']
  omega

/-! ### Characters -/

variable (acc : List Char) (start : Nat) (rest : List UInt8)

/-- A character of one byte. -/
theorem decodeFrom_one {b : UInt8} {v : Nat} (hb : b.toNat = v) (hv : v < 0x80) :
    decodeFrom acc start (b :: rest) = decodeFrom (Char.ofNat v :: acc) (start + 1) rest := by
  have hlt : b < 0x80 := by
    rw [UInt8.lt_iff_toNat_lt, hb]
    exact hv
  rw [decodeFrom, if_pos hlt, hb]

/-- A byte from `0x80` on is no character of one byte. -/
theorem not_lt_of_toNat {b : UInt8} (h : 0x80 ≤ b.toNat) : ¬ b < 0x80 := by
  intro hlt
  rw [UInt8.lt_iff_toNat_lt] at hlt
  exact Nat.not_lt.mpr h hlt

/-- A character of two bytes. -/
theorem decodeFrom_two {b b1 : UInt8} (high low : Nat) (hb : b.toNat = high + 0xC0)
    (hlo : 2 ≤ high) (hhi : high < 32) (hb1 : b1.toNat = low + 0x80) (hlow : low < 64) :
    decodeFrom acc start (b :: b1 :: rest) =
      decodeFrom (Char.ofNat (high * 64 + low) :: acc) (start + 2) rest := by
  have hcont : (0x80 : UInt8) ≤ b1 ∧ b1 ≤ 0xBF := by
    simpa [isContinuation] using isContinuation_of_toNat hb1 hlow
  rw [decodeFrom, if_neg (not_lt_of_toNat (by omega)), Lead.of?_two hb hlo hhi]
  simp only [hcont, and_self, not_true_eq_false, ↓reduceIte, extend_of_toNat high hb1]

/-- A character of three bytes. -/
theorem decodeFrom_three {b b1 b2 : UInt8} (high mid low : Nat) (hb : b.toNat = high + 0xE0)
    (hhigh : high < 16) (hb1 : b1.toNat = mid + 0x80) (hmid : mid < 64)
    (hb2 : b2.toNat = low + 0x80) (hlow : low < 64) (overlong : high = 0 → 32 ≤ mid)
    (surrogate : high = 13 → mid < 32) :
    decodeFrom acc start (b :: b1 :: b2 :: rest) =
      decodeFrom (Char.ofNat ((high * 64 + mid) * 64 + low) :: acc) (start + 3) rest := by
  obtain ⟨lead, hlead, hfollowing, hlo, hhi, hvalue⟩ :=
    Lead.of?_three hb hhigh hb1 hmid overlong surrogate
  rw [decodeFrom, if_neg (not_lt_of_toNat (by omega)), hlead]
  simp [hfollowing, hlo, hhi, isContinuation_of_toNat hb2 hlow, hvalue,
    extend_of_toNat _ hb1, extend_of_toNat _ hb2]

/-- A character of four bytes. -/
theorem decodeFrom_four {b b1 b2 b3 : UInt8} (high mid low last : Nat)
    (hb : b.toNat = high + 0xF0) (hhigh : high ≤ 4) (hb1 : b1.toNat = mid + 0x80)
    (hmid : mid < 64) (hb2 : b2.toNat = low + 0x80) (hlow : low < 64)
    (hb3 : b3.toNat = last + 0x80) (hlast : last < 64) (overlong : high = 0 → 16 ≤ mid)
    (beyond : high = 4 → mid < 16) :
    decodeFrom acc start (b :: b1 :: b2 :: b3 :: rest) =
      decodeFrom (Char.ofNat (((high * 64 + mid) * 64 + low) * 64 + last) :: acc) (start + 4)
        rest := by
  obtain ⟨lead, hlead, hfollowing, hlo, hhi, hvalue⟩ :=
    Lead.of?_four hb hhigh hb1 hmid overlong beyond
  rw [decodeFrom, if_neg (not_lt_of_toNat (by omega)), hlead]
  simp [hfollowing, hlo, hhi, isContinuation_of_toNat hb2 hlow, isContinuation_of_toNat hb3 hlast,
    hvalue, extend_of_toNat _ hb1, extend_of_toNat _ hb2, extend_of_toNat _ hb3]

/-- Decoding takes one encoded character off the front of the bytes. -/
theorem decodeFrom_encodeChar (c : Char) :
    decodeFrom acc start (String.utf8EncodeChar c ++ rest) =
      decodeFrom (c :: acc) (start + c.utf8Size) rest := by
  have hvalid : c.val.toNat < 0xD800 ∨ 0xDFFF < c.val.toNat ∧ c.val.toNat < 0x110000 := c.valid
  have hc : Char.ofNat c.val.toNat = c := Char.ofNat_toNat c
  rw [← String.length_utf8EncodeChar]
  unfold String.utf8EncodeChar
  generalize c.val.toNat = v at hvalid hc ⊢
  simp only
  by_cases h1 : v ≤ 0x7F
  · rw [if_pos h1]
    refine (decodeFrom_one acc start rest (toNat_ofNat (by omega)) (by omega)).trans ?_
    rw [hc]
    rfl
  · rw [if_neg h1]
    by_cases h2 : v ≤ 0x7FF
    · rw [if_pos h2]
      refine (decodeFrom_two acc start rest (v / 64 % 32) (v % 64) (toNat_ofNat (by omega))
        (by omega) (by omega) (toNat_ofNat (by omega)) (by omega)).trans ?_
      have hv : v / 64 % 32 * 64 + v % 64 = v := by omega
      rw [hv, hc]
      rfl
    · rw [if_neg h2]
      by_cases h3 : v ≤ 0xFFFF
      · rw [if_pos h3]
        -- Only here do surrogates matter: they would be three bytes long.
        refine (decodeFrom_three acc start rest (v / 4096 % 16) (v / 64 % 64) (v % 64)
          (toNat_ofNat (by omega)) (by omega) (toNat_ofNat (by omega)) (by omega)
          (toNat_ofNat (by omega)) (by omega) (by omega) (by omega)).trans ?_
        have hv : (v / 4096 % 16 * 64 + v / 64 % 64) * 64 + v % 64 = v := by omega
        rw [hv, hc]
        rfl
      · rw [if_neg h3]
        refine (decodeFrom_four acc start rest (v / 262144 % 8) (v / 4096 % 64) (v / 64 % 64)
          (v % 64) (toNat_ofNat (by omega)) (by omega) (toNat_ofNat (by omega)) (by omega)
          (toNat_ofNat (by omega)) (by omega) (toNat_ofNat (by omega)) (by omega) (by omega)
          (by omega)).trans ?_
        have hv : ((v / 262144 % 8 * 64 + v / 4096 % 64) * 64 + v / 64 % 64) * 64 + v % 64 = v := by
          omega
        rw [hv, hc]
        rfl

/-! ### Texts -/

/-- Decoding takes an encoded text off the front of the bytes. -/
theorem decodeFrom_encode (cs : List Char) :
    ∃ next,
      decodeFrom acc start (encode cs ++ rest) = decodeFrom (cs.reverse ++ acc) next rest := by
  induction cs generalizing acc start with
  | nil => exact ⟨start, rfl⟩
  | cons c cs ih =>
    obtain ⟨next, h⟩ := ih (c :: acc) (start + c.utf8Size)
    refine ⟨next, ?_⟩
    rw [encode, List.flatMap_cons, List.append_assoc, decodeFrom_encodeChar]
    simpa [encode] using h

/-- Decoding undoes encoding. -/
theorem decode_encode (cs : List Char) : decode (encode cs) = .ok cs := by
  obtain ⟨next, h⟩ := decodeFrom_encode [] 0 [] cs
  rw [List.append_nil, List.append_nil] at h
  rw [decode, h, decodeFrom, List.reverse_reverse]

/-- A text has as many bytes as its size says. -/
theorem length_encode (s : String) : (encode s.toList).length = s.utf8ByteSize := by
  rw [String.utf8ByteSize, ← String.utf8Encode_toList, List.utf8Encode, List.size_toByteArray]
  rfl

/-! ### Decoded bytes -/

/-- What the table of first bytes says, the other way round: the byte and the one after it give the
highest bits of a character that is neither overlong nor a surrogate nor beyond the last one. -/
theorem Lead.eq_of_of?_eq_some {b b1 : UInt8} {lead : Lead} (h : Lead.of? b = some lead)
    (hb1 : lead.low ≤ b1 ∧ b1 ≤ lead.high) :
    ∃ mid, b1.toNat = mid + 0x80 ∧ mid < 64 ∧
      ((lead.following = 1 ∧ b.toNat = lead.value + 0xC0 ∧ 2 ≤ lead.value ∧ lead.value < 32) ∨
        (lead.following = 2 ∧ b.toNat = lead.value + 0xE0 ∧ lead.value < 16 ∧
          (lead.value = 0 → 32 ≤ mid) ∧ (lead.value = 13 → mid < 32)) ∨
        (lead.following = 3 ∧ b.toNat = lead.value + 0xF0 ∧ lead.value ≤ 4 ∧
          (lead.value = 0 → 16 ≤ mid) ∧ (lead.value = 4 → mid < 16))) := by
  simp only [UInt8.le_iff_toNat_le] at hb1
  rw [Lead.of?_eq] at h
  (repeat' split at h) <;> cases h <;> simp only [UInt8.reduceToNat] at hb1 <;>
    exact ⟨b1.toNat - 0x80, by omega, by omega, by simp; omega⟩

theorem toNat_of_isContinuation {b : UInt8} (h : isContinuation b = true) :
    ∃ low, b.toNat = low + 0x80 ∧ low < 64 := by
  simp only [isContinuation, Bool.and_eq_true, decide_eq_true_eq, UInt8.le_iff_toNat_le,
    UInt8.reduceToNat] at h
  exact ⟨b.toNat - 0x80, by omega, by omega⟩

theorem ofNat_of_toNat {b : UInt8} {n : Nat} (h : b.toNat = n) : UInt8.ofNat n = b := by
  rw [← h, UInt8.ofNat_toNat]

theorem val_ofNat {v : Nat} (h : v.isValidChar) : (Char.ofNat v).val.toNat = v := by
  rw [Char.ofNat, dif_pos h]
  rfl

theorem encodeChar_one {b : UInt8} (h : b.toNat < 0x80) :
    String.utf8EncodeChar (Char.ofNat b.toNat) = [b] := by
  unfold String.utf8EncodeChar
  rw [val_ofNat (.inl (by omega))]
  simp only
  rw [if_pos (by omega), ofNat_of_toNat rfl]

theorem encodeChar_two {b b1 : UInt8} (high low : Nat) (hb : b.toNat = high + 0xC0)
    (hlo : 2 ≤ high) (hhi : high < 32) (hb1 : b1.toNat = low + 0x80) (hlow : low < 64) :
    String.utf8EncodeChar (Char.ofNat (high * 64 + low)) = [b, b1] := by
  unfold String.utf8EncodeChar
  rw [val_ofNat (.inl (by omega))]
  simp only
  rw [if_neg (by omega), if_pos (by omega), ofNat_of_toNat (by omega : b.toNat = _),
    ofNat_of_toNat (by omega : b1.toNat = _)]

theorem encodeChar_three {b b1 b2 : UInt8} (high mid low : Nat) (hb : b.toNat = high + 0xE0)
    (hhigh : high < 16) (hb1 : b1.toNat = mid + 0x80) (hmid : mid < 64)
    (hb2 : b2.toNat = low + 0x80) (hlow : low < 64) (overlong : high = 0 → 32 ≤ mid)
    (surrogate : high = 13 → mid < 32) :
    String.utf8EncodeChar (Char.ofNat ((high * 64 + mid) * 64 + low)) = [b, b1, b2] := by
  unfold String.utf8EncodeChar
  rw [val_ofNat (show _ ∨ _ by omega)]
  simp only
  rw [if_neg (by omega), if_neg (by omega), if_pos (by omega),
    ofNat_of_toNat (by omega : b.toNat = _), ofNat_of_toNat (by omega : b1.toNat = _),
    ofNat_of_toNat (by omega : b2.toNat = _)]

theorem encodeChar_four {b b1 b2 b3 : UInt8} (high mid low last : Nat)
    (hb : b.toNat = high + 0xF0) (hhigh : high ≤ 4) (hb1 : b1.toNat = mid + 0x80)
    (hmid : mid < 64) (hb2 : b2.toNat = low + 0x80) (hlow : low < 64)
    (hb3 : b3.toNat = last + 0x80) (hlast : last < 64) (overlong : high = 0 → 16 ≤ mid)
    (beyond : high = 4 → mid < 16) :
    String.utf8EncodeChar (Char.ofNat (((high * 64 + mid) * 64 + low) * 64 + last)) =
      [b, b1, b2, b3] := by
  unfold String.utf8EncodeChar
  rw [val_ofNat (show _ ∨ _ by omega)]
  simp only
  rw [if_neg (by omega), if_neg (by omega), if_neg (by omega),
    ofNat_of_toNat (by omega : b.toNat = _), ofNat_of_toNat (by omega : b1.toNat = _),
    ofNat_of_toNat (by omega : b2.toNat = _), ofNat_of_toNat (by omega : b3.toNat = _)]

theorem exists_encode_cons {acc cs : List Char} {front rest : List UInt8} {c : Char}
    (hc : String.utf8EncodeChar c = front)
    (h : ∃ ds, cs = (c :: acc).reverse ++ ds ∧ encode ds = rest) :
    ∃ ds, cs = acc.reverse ++ ds ∧ encode ds = front ++ rest := by
  obtain ⟨ds, rfl, rfl⟩ := h
  refine ⟨c :: ds, ?_, ?_⟩
  · rw [List.reverse_cons, List.append_assoc, List.singleton_append]
  · rw [encode, List.flatMap_cons, hc, encode]

/-- Bytes that are decoded are those of the characters. -/
theorem exists_encode_of_decodeFrom {acc : List Char} {start : Nat} {bytes : List UInt8}
    {cs : List Char} (h : decodeFrom acc start bytes = .ok cs) :
    ∃ ds, cs = acc.reverse ++ ds ∧ encode ds = bytes := by
  fun_induction decodeFrom acc start bytes with
  | case1 acc =>
    obtain rfl := Except.ok.inj h
    exact ⟨[], (List.append_nil _).symm, rfl⟩
  | case2 acc start b rest hb ih =>
    exact exists_encode_cons (encodeChar_one (UInt8.lt_iff_toNat_lt.mp hb)) (ih h)
  | case6 acc start b _ lead hlead b1 rest v1 hb1 htwo ih =>
    obtain ⟨mid, hmid, hlt, hcases⟩ := lead.eq_of_of?_eq_some hlead (Decidable.of_not_not hb1)
    obtain ⟨-, hb, hlo, hhi⟩ := hcases.resolve_right (by omega)
    rw [show v1 = _ from extend_of_toNat _ hmid] at h ih
    exact exists_encode_cons (encodeChar_two _ _ hb hlo hhi hmid hlt) (ih h)
  | case9 acc start b _ lead hlead b1 v1 hb1 _ b2 rest v2 hb2 hthree ih =>
    obtain ⟨mid, hmid, hlt, hcases⟩ := lead.eq_of_of?_eq_some hlead (Decidable.of_not_not hb1)
    obtain ⟨low, hlow, hlt'⟩ := toNat_of_isContinuation (Decidable.of_not_not hb2)
    obtain ⟨-, hb, hhigh, overlong, surrogate⟩ :=
      (hcases.resolve_left (by omega)).resolve_right (by omega)
    rw [show v2 = _ from extend_of_toNat _ hlow, show v1 = _ from extend_of_toNat _ hmid] at h ih
    exact exists_encode_cons
      (encodeChar_three _ _ _ hb hhigh hmid hlt hlow hlt' overlong surrogate) (ih h)
  | case12 acc start b _ lead hlead b1 v1 hb1 hne b2 v2 hb2 hne' b3 rest hb3 ih =>
    obtain ⟨mid, hmid, hlt, hcases⟩ := lead.eq_of_of?_eq_some hlead (Decidable.of_not_not hb1)
    obtain ⟨low, hlow, hlt'⟩ := toNat_of_isContinuation (Decidable.of_not_not hb2)
    obtain ⟨last, hlast, hlt''⟩ := toNat_of_isContinuation (Decidable.of_not_not hb3)
    obtain ⟨-, hb, hhigh, overlong, beyond⟩ :=
      (hcases.resolve_left (by omega)).resolve_left (by omega)
    rw [extend_of_toNat _ hlast, show v2 = _ from extend_of_toNat _ hlow,
      show v1 = _ from extend_of_toNat _ hmid] at h ih
    exact exists_encode_cons
      (encodeChar_four _ _ _ _ hb hhigh hmid hlt hlow hlt' hlast hlt'' overlong beyond) (ih h)
  | case3 | case4 | case5 | case7 | case8 | case10 | case11 => cases h

/-- Bytes that are decoded are those of the characters. -/
theorem encode_of_decode {bytes : List UInt8} {cs : List Char} (h : decode bytes = .ok cs) :
    encode cs = bytes := by
  obtain ⟨ds, rfl, hds⟩ := exists_encode_of_decodeFrom h
  exact hds

end LayoutCompiler.Text.Utf8
