import StakeLedger.Proofs.Outcomes
import StakeLedger.Text.Utf8

/-!
# Texts and their bytes

UTF-8 has one form for each text: what is written is read back, and what is read is what the text
is written as. The case distinctions of the reader are those of a table of byte sequences, one
line for each length, and each line gives back the bytes of its character.

* `Utf8.Sequence` is the table. `Utf8.Sequence.utf8EncodeChar_eq` and
  `Utf8.sequence_utf8EncodeChar` say that its sequences are the forms of the characters.
* `Utf8.decode_ofString` reads a string back; `Utf8.ofString_of_decode` says that nothing else is
  read as it.
-/

namespace StakeLedger.Utf8

/-! ## Bytes and characters by their numbers -/

theorem toNat_charOfNat {n : Nat} (h : n.isValidChar) : (Char.ofNat n).toNat = n := by
  rw [Char.ofNat, dif_pos h]
  rfl

theorem charOfNat_eq {n : Nat} {ch : Char} (h : n = ch.toNat) : Char.ofNat n = ch := by
  rw [h, Char.ofNat_toNat]

theorem byteOfNat_eq {n : Nat} {b : UInt8} (h : n = b.toNat) : UInt8.ofNat n = b := by
  rw [h, UInt8.ofNat_toNat]

theorem isTail_eq_true_iff {b : UInt8} : isTail b = true ↔ 0x80 ≤ b.toNat ∧ b.toNat ≤ 0xBF := by
  simp [isTail, UInt8.le_iff_toNat_le]

theorem second3_eq_true_iff {b c : UInt8} :
    second3 b c = true ↔ 0x80 ≤ c.toNat ∧ c.toNat ≤ 0xBF ∧ (b.toNat = 0xE0 → 0xA0 ≤ c.toNat) ∧
      (b.toNat = 0xED → c.toNat ≤ 0x9F) := by
  have hfirst : ∀ n : UInt8, b = n ↔ b.toNat = n.toNat := fun n => UInt8.toNat_inj.symm
  simp only [second3, hfirst, UInt8.reduceToNat]
  split
  · simp [UInt8.le_iff_toNat_le]
    omega
  · split
    · simp [UInt8.le_iff_toNat_le]
      omega
    · rw [isTail_eq_true_iff]
      omega

theorem second4_eq_true_iff {b c : UInt8} :
    second4 b c = true ↔ 0x80 ≤ c.toNat ∧ c.toNat ≤ 0xBF ∧ (b.toNat = 0xF0 → 0x90 ≤ c.toNat) ∧
      (b.toNat = 0xF4 → c.toNat ≤ 0x8F) := by
  have hfirst : ∀ n : UInt8, b = n ↔ b.toNat = n.toNat := fun n => UInt8.toNat_inj.symm
  simp only [second4, hfirst, UInt8.reduceToNat]
  split
  · simp [UInt8.le_iff_toNat_le]
    omega
  · split
    · simp [UInt8.le_iff_toNat_le]
      omega
    · rw [isTail_eq_true_iff]
      omega

/-! ## Characters -/

/-- The sequences of bytes that are read as one character. -/
inductive Sequence : Char → Bytes → Prop
  /-- A byte below 128. -/
  | one {b : UInt8} (hb : b < 0x80) : Sequence (Char.ofNat b.toNat) [b]
  /-- A character of two bytes. -/
  | two {b c : UInt8} (hb : 0xC2 ≤ b ∧ b ≤ 0xDF) (hc : isTail c = true) :
    Sequence (assemble (b.toNat - 0xC0) [c]) [b, c]
  /-- A character of three bytes. -/
  | three {b c d : UInt8} (hb : 0xE0 ≤ b ∧ b ≤ 0xEF) (hc : second3 b c = true)
    (hd : isTail d = true) : Sequence (assemble (b.toNat - 0xE0) [c, d]) [b, c, d]
  /-- A character of four bytes. -/
  | four {b c d e : UInt8} (hb : 0xF0 ≤ b ∧ b ≤ 0xF4) (hc : second4 b c = true)
    (hd : isTail d = true) (he : isTail e = true) :
    Sequence (assemble (b.toNat - 0xF0) [c, d, e]) [b, c, d, e]

namespace Sequence

variable {ch : Char} {bytes : Bytes}

/-- **A sequence is what its character is written as.** -/
theorem utf8EncodeChar_eq (h : Sequence ch bytes) : String.utf8EncodeChar ch = bytes := by
  rw [String.utf8EncodeChar]
  cases h with
  | @one b hb =>
    simp only [UInt8.lt_iff_toNat_lt, UInt8.reduceToNat] at hb
    have hn : (Char.ofNat b.toNat).val.toNat = b.toNat := toNat_charOfNat (.inl (by omega))
    simp only [hn]
    rw [if_pos (by omega), UInt8.ofNat_toNat]
  | @two b c hb hc =>
    simp only [UInt8.le_iff_toNat_le, UInt8.reduceToNat] at hb
    rw [isTail_eq_true_iff] at hc
    have hn : (assemble (b.toNat - 0xC0) [c]).val.toNat =
        (b.toNat - 0xC0) * 64 + (c.toNat - 0x80) := toNat_charOfNat (.inl (by simp; omega))
    simp only [hn]
    rw [if_neg (by omega), if_pos (by omega), byteOfNat_eq (b := b) (by omega),
      byteOfNat_eq (b := c) (by omega)]
  | @three b c d hb hc hd =>
    simp only [UInt8.le_iff_toNat_le, UInt8.reduceToNat] at hb
    rw [second3_eq_true_iff] at hc
    rw [isTail_eq_true_iff] at hd
    have hn : (assemble (b.toNat - 0xE0) [c, d]).val.toNat =
        ((b.toNat - 0xE0) * 64 + (c.toNat - 0x80)) * 64 + (d.toNat - 0x80) :=
      toNat_charOfNat (by simp [Nat.isValidChar]; omega)
    simp only [hn]
    rw [if_neg (by omega), if_neg (by omega), if_pos (by omega), byteOfNat_eq (b := b) (by omega),
      byteOfNat_eq (b := c) (by omega), byteOfNat_eq (b := d) (by omega)]
  | @four b c d e hb hc hd he =>
    simp only [UInt8.le_iff_toNat_le, UInt8.reduceToNat] at hb
    rw [second4_eq_true_iff] at hc
    rw [isTail_eq_true_iff] at hd he
    have hn : (assemble (b.toNat - 0xF0) [c, d, e]).val.toNat =
        (((b.toNat - 0xF0) * 64 + (c.toNat - 0x80)) * 64 + (d.toNat - 0x80)) * 64 +
          (e.toNat - 0x80) :=
      toNat_charOfNat (by simp [Nat.isValidChar]; omega)
    simp only [hn]
    rw [if_neg (by omega), if_neg (by omega), if_neg (by omega), byteOfNat_eq (b := b) (by omega),
      byteOfNat_eq (b := c) (by omega), byteOfNat_eq (b := d) (by omega),
      byteOfNat_eq (b := e) (by omega)]

theorem one_of_toNat {b : UInt8} (hb : b.toNat = ch.toNat) (h : ch.toNat ≤ 0x7F) :
    Sequence ch [b] := by
  have hseq := one (b := b) (by simp only [UInt8.lt_iff_toNat_lt, UInt8.reduceToNat]; omega)
  rwa [charOfNat_eq hb] at hseq

theorem two_of_toNat {b c : UInt8} (hb : b.toNat = ch.toNat / 64 % 32 + 0xC0)
    (hc : c.toNat = ch.toNat % 64 + 0x80) (h : 0x80 ≤ ch.toNat) (h' : ch.toNat ≤ 0x7FF) :
    Sequence ch [b, c] := by
  have hseq := two (b := b) (c := c)
    (by simp only [UInt8.le_iff_toNat_le, UInt8.reduceToNat]; omega)
    (by rw [isTail_eq_true_iff]; omega)
  have hch : assemble (b.toNat - 0xC0) [c] = ch := by
    apply charOfNat_eq
    simp only [List.foldl_cons, List.foldl_nil]
    omega
  rwa [hch] at hseq

theorem three_of_toNat {b c d : UInt8} (hb : b.toNat = ch.toNat / 4096 % 16 + 0xE0)
    (hc : c.toNat = ch.toNat / 64 % 64 + 0x80) (hd : d.toNat = ch.toNat % 64 + 0x80)
    (h : 0x800 ≤ ch.toNat) (h' : ch.toNat ≤ 0xFFFF)
    (hsurrogate : ch.toNat < 0xD800 ∨ 0xDFFF < ch.toNat) : Sequence ch [b, c, d] := by
  have hseq := three (b := b) (c := c) (d := d)
    (by simp only [UInt8.le_iff_toNat_le, UInt8.reduceToNat]; omega)
    (by rw [second3_eq_true_iff]; omega) (by rw [isTail_eq_true_iff]; omega)
  have hch : assemble (b.toNat - 0xE0) [c, d] = ch := by
    apply charOfNat_eq
    simp only [List.foldl_cons, List.foldl_nil]
    omega
  rwa [hch] at hseq

theorem four_of_toNat {b c d e : UInt8} (hb : b.toNat = ch.toNat / 262144 % 8 + 0xF0)
    (hc : c.toNat = ch.toNat / 4096 % 64 + 0x80) (hd : d.toNat = ch.toNat / 64 % 64 + 0x80)
    (he : e.toNat = ch.toNat % 64 + 0x80) (h : 0x10000 ≤ ch.toNat) (h' : ch.toNat < 0x110000) :
    Sequence ch [b, c, d, e] := by
  have hseq := four (b := b) (c := c) (d := d) (e := e)
    (by simp only [UInt8.le_iff_toNat_le, UInt8.reduceToNat]; omega)
    (by rw [second4_eq_true_iff]; omega) (by rw [isTail_eq_true_iff]; omega)
    (by rw [isTail_eq_true_iff]; omega)
  have hch : assemble (b.toNat - 0xF0) [c, d, e] = ch := by
    apply charOfNat_eq
    simp only [List.foldl_cons, List.foldl_nil]
    omega
  rwa [hch] at hseq

/-- The reader takes a sequence in front as its character. -/
theorem decodeFrom_append (h : Sequence ch bytes) (position : Nat) (rest : Bytes) :
    decodeFrom position (bytes ++ rest) =
      (decodeFrom (position + bytes.length) rest).map (ch :: ·) := by
  -- the ranges of the first bytes are disjoint, so no earlier case of the reader applies
  cases h with
  | one hb =>
    rw [List.singleton_append, decodeFrom.eq_def]
    simp only [if_pos hb, List.length_singleton]
  | @two b c hb hc =>
    have hone : ¬ b < 0x80 := by grind
    simp only [List.cons_append, List.nil_append]
    rw [decodeFrom.eq_def]
    simp only [if_neg hone, if_pos hb, if_pos hc, List.length_cons, List.length_nil]
  | @three b c d hb hc hd =>
    have hone : ¬ b < 0x80 := by grind
    have htwo : ¬ (0xC2 ≤ b ∧ b ≤ 0xDF) := by grind
    simp only [List.cons_append, List.nil_append]
    rw [decodeFrom.eq_def]
    simp [hone, htwo, hb, hc, hd]
  | @four b c d e hb hc hd he =>
    have hone : ¬ b < 0x80 := by grind
    have htwo : ¬ (0xC2 ≤ b ∧ b ≤ 0xDF) := by grind
    have hthree : ¬ (0xE0 ≤ b ∧ b ≤ 0xEF) := by grind
    simp only [List.cons_append, List.nil_append]
    rw [decodeFrom.eq_def]
    simp [hone, htwo, hthree, hb, hc, hd, he]

end Sequence

/-- **What a character is written as is a sequence.** -/
theorem sequence_utf8EncodeChar (ch : Char) : Sequence ch (String.utf8EncodeChar ch) := by
  have hvalid : ch.toNat < 0xD800 ∨ 0xDFFF < ch.toNat ∧ ch.toNat < 0x110000 := ch.valid
  have hbyte : ∀ n : Nat, n < 256 → (UInt8.ofNat n).toNat = n := fun n hn =>
    UInt8.toNat_ofNat_of_lt' hn
  rw [String.utf8EncodeChar]
  change Sequence ch (if ch.toNat ≤ 0x7F then _ else if ch.toNat ≤ 0x7FF then _ else
    if ch.toNat ≤ 0xFFFF then _ else _)
  split
  · next hone => exact .one_of_toNat (hbyte ch.toNat (by omega)) hone
  · next hone =>
    split
    · next htwo =>
      exact .two_of_toNat (hbyte _ (by omega)) (hbyte _ (by omega)) (by omega) htwo
    · next htwo =>
      split
      · next hthree =>
        exact .three_of_toNat (hbyte _ (by omega)) (hbyte _ (by omega)) (hbyte _ (by omega))
          (by omega) hthree (by omega)
      · next hthree =>
        exact .four_of_toNat (hbyte _ (by omega)) (hbyte _ (by omega)) (hbyte _ (by omega))
          (hbyte _ (by omega)) (by omega) (by omega)

/-! ## Texts -/

theorem decodeFrom_encode (position : Nat) (text : List Char) :
    decodeFrom position (encode text) = .ok text := by
  induction text generalizing position with
  | nil => rw [encode, List.flatMap_nil, decodeFrom]
  | cons ch text ih =>
    rw [encode, List.flatMap_cons, ← encode, (sequence_utf8EncodeChar ch).decodeFrom_append, ih]
    rfl

theorem encode_of_map_decodeFrom {ch : Char} {front back : Bytes} {next : Nat} {text : List Char}
    (hseq : Sequence ch front)
    (ih : ∀ {more}, decodeFrom next back = .ok more → encode more = back)
    (h : (decodeFrom next back).map (ch :: ·) = .ok text) : encode text = front ++ back := by
  obtain ⟨more, hmore, rfl⟩ := exists_of_map_eq_ok h
  rw [encode, List.flatMap_cons, ← encode, hseq.utf8EncodeChar_eq, ih hmore]

theorem encode_of_decodeFrom {position : Nat} {bytes : Bytes} {text : List Char}
    (h : decodeFrom position bytes = .ok text) : encode text = bytes := by
  -- of the cases of the reader, those that go on are the lines of the table
  fun_induction decodeFrom position bytes generalizing text with
  | case1 =>
    cases h
    rfl
  | case2 _ _ _ hb ih => exact encode_of_map_decodeFrom (.one hb) ih h
  | case4 _ _ _ hb _ _ hc ih => exact encode_of_map_decodeFrom (.two hb hc) ih h
  | case11 _ _ _ _ hb _ _ _ hc hd ih =>
    simp only [Bool.not_eq_true, Bool.not_eq_false'] at hc hd
    exact encode_of_map_decodeFrom (.three hb hc hd) ih h
  | case21 _ _ _ _ _ hb _ _ _ _ hc hd he ih =>
    simp only [Bool.not_eq_true, Bool.not_eq_false'] at hc hd he
    exact encode_of_map_decodeFrom (.four hb hc hd he) ih h
  | _ => cases h

/-- **A string is read back.** -/
theorem decode_ofString (s : String) : decode (ofString s) = .ok s.toList :=
  decodeFrom_encode 0 s.toList

/-- **Bytes that are read are what their text is written as.** -/
theorem ofString_of_decode {bytes : Bytes} {text : List Char} (h : decode bytes = .ok text) :
    ofString (String.ofList text) = bytes := by
  rw [ofString, String.toList_ofList]
  exact encode_of_decodeFrom h

end StakeLedger.Utf8
