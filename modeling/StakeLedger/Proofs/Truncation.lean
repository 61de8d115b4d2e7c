import StakeLedger.Proofs.Kinds
import StakeLedger.Proofs.Payment

/-!
# Reading back, and what is cut off

A reader goes from front to back: it decides by the bytes in front what it reads next, and never
looks at what is behind. Hence an encoding of which the end is missing is not taken for a shorter
one. Together with the laws of the codecs, every encoding is read back with exactly its own bytes,
and is refused with any byte more or less.

* `Codec.Reader.Sequential` says that a reader goes from front to back; `Codec.Composed.sequential`
  shows it for all codecs.
* `Codec.ReadsBack` says what holds of an encoding that is read back;
  `Codec.ReadsBack.of_decode_append` derives it.
* `Codec.Kind.readsBack_iff` is the main statement.
-/

namespace StakeLedger

/-- Bytes that are cut somewhere are cut behind the first unit or within it. -/
theorem Bytes.cases_of_append_eq {front back unit rest : Bytes} (h : front ++ back = unit ++ rest) :
    (∃ left, front = unit ++ left ∧ rest = left ++ back) ∨ front.length < unit.length := by
  rcases List.append_eq_append_iff.mp h with ⟨missing, rfl, rfl⟩ | ⟨left, rfl, rfl⟩
  · cases missing with
    | nil => exact .inl ⟨[], by rw [List.append_nil, List.append_nil], rfl⟩
    | cons b missing => exact .inr (by simp)
  · exact .inl ⟨left, rfl, rfl⟩

namespace Codec

/-! ## From front to back -/

namespace Reader

variable {α β : Type} {read : Reader α}

/-- Whether a reader goes from front to back: from the front part of bytes from which it reads a
value it reads the same value, or it misses further bytes. -/
def Sequential (read : Reader α) : Prop :=
  ∀ ⦃front back rest : Bytes⦄ ⦃a : α⦄, read (front ++ back) = .ok (a, rest) →
    (∃ left, read front = .ok (a, left) ∧ rest = left ++ back) ∨
      ∃ n, read front = .error (.refused (.unexpectedEnd n))

theorem sequential_pure (a : α) : Sequential fun input => .ok (a, input) := by
  intro front back rest b h
  cases h
  exact .inl ⟨front, rfl, rfl⟩

/-- A reader that always fails reads nothing. -/
theorem sequential_error {fault : Bytes → ReadFault DecodeError} :
    Sequential (α := α) fun input => .error (fault input) := by
  intro front back rest a h
  cases h

theorem Sequential.mapValue (hread : Sequential read) (f : α → β) :
    Sequential (mapValue read f) := by
  intro front back rest b h
  obtain ⟨a, ha, rfl⟩ := mapValue_eq_ok_iff.mp h
  rcases hread ha with ⟨left, hleft, hrest⟩ | ⟨n, hn⟩
  · exact .inl ⟨left, mapValue_eq_ok_iff.mpr ⟨a, hleft, rfl⟩, hrest⟩
  · exact .inr ⟨n, by rw [Reader.mapValue, hn, Except.map]⟩

theorem Sequential.andThen (hread : Sequential read) {next : α → Reader β}
    (hnext : ∀ a, Sequential (next a)) : Sequential (andThen read next) := by
  intro front back rest b h
  obtain ⟨a, middle, ha, hb⟩ := andThen_eq_ok_iff.mp h
  rcases hread ha with ⟨left, hleft, rfl⟩ | ⟨n, hn⟩
  · have hfront : Reader.andThen read next front = next a left := by rw [Reader.andThen, hleft]
    rw [hfront]
    exact hnext a hb
  · exact .inr ⟨n, by rw [Reader.andThen, hn]⟩

theorem sequential_headed {next : UInt8 → Reader α} (hnext : ∀ b, Sequential (next b)) :
    Sequential (headed next) := by
  intro front back rest a h
  cases front with
  | nil => exact .inr ⟨1, rfl⟩
  | cons b front => exact hnext b h

theorem Sequential.ite {p : Prop} [Decidable p] {yes no : Reader α} (hyes : Sequential yes)
    (hno : Sequential no) : Sequential fun input => if p then yes input else no input := by
  split
  · exact hyes
  · exact hno

theorem sequential_takeUnit (size : Nat) : Sequential (Varint.takeUnit size) := by
  intro front back rest unit h
  obtain ⟨heq, hlength⟩ := takeUnit_eq_ok_iff.mp h
  rcases Bytes.cases_of_append_eq heq with ⟨left, rfl, rfl⟩ | hlt
  · exact .inl ⟨left, takeUnit_eq_ok_iff.mpr ⟨rfl, hlength⟩, rfl⟩
  · refine .inr ⟨size - front.length, ?_⟩
    rw [Varint.takeUnit, Bytes.split?, if_neg (by omega)]

theorem sequential_varint (expected : IntegerWidth) : Sequential (Varint.decode expected) := by
  have hfixed : ∀ size, Sequential (Varint.decodeFixed size) := fun size =>
    (sequential_takeUnit size).mapValue Bytes.ofLittleEndian
  rw [decode_varint]
  exact sequential_headed fun b => (sequential_pure _).ite ((hfixed 2).ite ((hfixed 4).ite
    ((sequential_error.ite (hfixed 8)).ite sequential_error)))

theorem sequential_readText (n : Nat) : Sequential (readText n) := by
  refine (sequential_takeUnit n).andThen fun body => ?_
  cases Utf8.decode body with
  | error fault => exact sequential_error
  | ok text => exact sequential_pure _

theorem sequential_identifier : Sequential (decode (α := Identifier)) := by
  intro front back rest x h
  rcases Bytes.cases_of_append_eq (decode_identifier_eq_ok_iff.mp h) with ⟨left, rfl, rfl⟩ | hlt
  · exact .inl ⟨left, decode_identifier_eq_ok_iff.mpr rfl, rfl⟩
  · exact .inr ⟨1, decode_identifier_of_length_lt (x.length_eq ▸ hlt)⟩

theorem sequential_decodeMany [Codec α] (h : Sequential (decode (α := α))) (n : Nat) :
    Sequential (decodeMany α n) := by
  induction n with
  | zero => exact sequential_pure []
  | succ n ih =>
    rw [decodeMany_succ]
    exact h.andThen fun a => ih.mapValue (a :: ·)

end Reader

open Reader

variable {α : Type} [Codec α]

/-- **Every decoder goes from front to back.** -/
theorem Composed.sequential (h : Composed α) : Sequential (decode (α := α)) := by
  induction h with
  | identifier => exact sequential_identifier
  | word => exact (sequential_varint .word64).mapValue UInt64.ofNat
  | byte =>
    rw [decode_byte]
    exact sequential_headed fun b => sequential_pure b
  | alternative n =>
    rw [decode_alternative]
    refine (sequential_varint .word32).andThen fun found => ?_
    by_cases hfound : found < n
    · simp only [dif_pos hfound]
      exact sequential_pure _
    · simp only [dif_neg hfound]
      exact sequential_error
  | text =>
    rw [decode_text]
    exact (sequential_varint .word64).andThen fun n => sequential_error.ite (sequential_readText n)
  | pair _ _ iha ihb =>
    rw [decode_pair]
    exact iha.andThen fun a => ihb.mapValue fun b => (a, b)
  | option _ ih =>
    rw [decode_option]
    exact sequential_headed fun b =>
      (sequential_pure none).ite ((ih.mapValue some).ite sequential_error)
  | list _ ih =>
    rw [decode_list]
    exact (sequential_varint .length).andThen (sequential_decodeMany ih)
  | record fields build _ _ ih => exact ih.mapValue build

/-! ## Reading back -/

/-- What holds of a value that is read back from its encoding: exactly the encoding is taken from
any bytes that start with it, and the encoding as a whole is refused with a byte more or less. -/
structure ReadsBack (v : α) : Prop where
  decode_append (rest : Bytes) : decode (encode v ++ rest) = .ok (v, rest)
  ofBytes_encode : ofBytes (encode v) = .ok v
  ofBytes_append {rest : Bytes} (hrest : rest ≠ []) : ofBytes (α := α) (encode v ++ rest) =
    .error (.refused (.codec (.trailing (encode v).length ((encode v).length + rest.length))))
  ofBytes_front {front back : Bytes} (h : encode v = front ++ back) (hback : back ≠ []) :
    ∃ n, ofBytes (α := α) front = .error (.refused (.codec (.decode (.unexpectedEnd n))))

theorem ReadsBack.decode_encode {v : α} (h : ReadsBack v) : decode (encode v) = .ok (v, []) :=
  ofBytes_eq_ok_iff.mp h.ofBytes_encode

/-- **An encoding that is read back with any bytes after it is refused in part.** -/
theorem ReadsBack.of_decode_append [hα : Composed α] {v : α}
    (h : ∀ rest, decode (encode v ++ rest) = .ok (v, rest)) : ReadsBack v where
  decode_append := h
  ofBytes_encode := ofBytes_of_decode_append h
  ofBytes_append hrest := ofBytes_append_of_decode hrest (h _)
  ofBytes_front {front back} hv hback := by
    have hread := ofBytes_eq_ok_iff.mp (ofBytes_of_decode_append h)
    rw [hv] at hread
    rcases hα.sequential hread with ⟨left, -, hnil⟩ | ⟨n, hn⟩
    · exact absurd (List.append_eq_nil_iff.mp hnil.symm).2 hback
    · exact ⟨n, ofBytes_of_decode_error hn⟩

/-- The tag of an encoded entity is not looked for if its length is too large. -/
theorem decode_encodedEntity_of_le {bytes : Bytes} {n : Nat} (hbytes : Fits bytes)
    (hle : addressLimit ≤ n) (hn : n < 2 ^ 64) (rest : Bytes) :
    decode (α := EncodedEntity) (encode bytes ++ (Varint.encode n ++ rest)) =
      .error (.unaddressable n) := by
  have hlength : Varint.decode .word64 (Varint.encode n ++ rest) = .ok (n, rest) :=
    Varint.decode_encode_append_of_lt (by simp) hn rest
  have htext : decode (α := String) (Varint.encode n ++ rest) = .error (.unaddressable n) := by
    rw [decode_text, andThen, hlength]
    exact if_pos hle
  have hpair : decode (α := Bytes × String) (encode bytes ++ (Varint.encode n ++ rest)) =
      .error (.unaddressable n) := by
    rw [decode_pair, andThen, decode_encode_append hbytes]
    simp only [mapValue, htext, Except.map]
  calc decode (α := EncodedEntity) (encode bytes ++ (Varint.encode n ++ rest))
      = mapValue decode (fun p : Bytes × String => EncodedEntity.mk p.1 p.2)
          (encode bytes ++ (Varint.encode n ++ rest)) := rfl
    _ = .error (.unaddressable n) := by rw [mapValue, hpair, Except.map]

namespace Kind

variable {k : Kind} {v : k.Carrier}

/-- A value that is read back has no text that is too long. -/
theorem isAddressable_of_decode (hv : IsBounded v) (h : decode (encode v) = .ok (v, [])) :
    IsAddressable v := by
  cases k with
  | encodedEntity =>
    obtain ⟨bytes, typeTag⟩ := v
    by_contra hle
    have hlimit : addressLimit ≤ (Utf8.ofString typeTag).length := Nat.le_of_not_lt hle
    have hread := decode_encodedEntity_of_le hv.1 hlimit hv.2 (Utf8.ofString typeTag)
    have hencode : decode (α := EncodedEntity) (encode (EncodedEntity.mk bytes typeTag)) =
        .ok (EncodedEntity.mk bytes typeTag, []) := h
    have hsplit : encode (EncodedEntity.mk bytes typeTag) =
      encode bytes ++ (Varint.encode (Utf8.ofString typeTag).length ++ Utf8.ofString typeTag) := rfl
    rw [hsplit, hread] at hencode
    cases hencode
  | _ => trivial

/-- **Every value is read back from its encoding, and from nothing that is shorter or longer by
bytes at the end,** for all kinds of values with lists and texts of fewer than 2^64 elements and
bytes. The one condition is on the tag of an encoded entity: its length must be below 2^63, or the
reader fails without a look at the text. -/
theorem readsBack_iff (hv : IsBounded v) : ReadsBack v ↔ IsAddressable v := by
  constructor
  · exact fun h => isAddressable_of_decode hv h.decode_encode
  · intro h
    exact .of_decode_append (decode_encode_append ((fits_iff hv).mpr h))

/-- The second block of the sample payment, as it travels. -/
theorem readsBack_iff_sample :
    let e : encodedEntity.Carrier := EncodedEntity.ofEntity Payment.sample.second
    IsBounded e ∧ IsAddressable e ∧ ReadsBack e := by
  intro e
  have hbytes : Fits (EncodedEntity.ofEntity Payment.sample.second).bytes :=
    ⟨by decide +kernel, fun _ _ => trivial⟩
  have htag : (Utf8.ofString "block").length < addressLimit := by decide
  have hv : IsBounded e := ⟨hbytes, Nat.lt_trans htag (by decide)⟩
  have haddressable : IsAddressable e := htag
  exact ⟨hv, haddressable, (readsBack_iff hv).mpr haddressable⟩

theorem length_replicate_letter (n : Nat) :
    (Utf8.ofString (String.ofList (List.replicate n 'a'))).length = n := by
  have hletter : String.utf8EncodeChar 'a' = [0x61] := by decide
  rw [Utf8.ofString, String.toList_ofList, Utf8.encode, List.flatMap_replicate, hletter]
  simp

/-- **The condition on the tag is needed.** An entity with a tag of 2^63 letters is not read back,
and the ten bytes in front of the tag, a proper part of the encoding, are not refused as one that
misses bytes. -/
theorem not_readsBack_of_long_tag :
    let e : encodedEntity.Carrier :=
      EncodedEntity.mk [] (String.ofList (List.replicate addressLimit 'a'))
    let front : Bytes := [0, 253, 0, 0, 0, 0, 0, 0, 0, 128]
    IsBounded e ∧ ¬ ReadsBack e ∧ (∃ back, back ≠ [] ∧ encode e = front ++ back) ∧
      ofBytes (α := EncodedEntity) front =
        .error (.unaddressable addressLimit) := by
  intro e front
  have hlength := length_replicate_letter addressLimit
  have hempty : Fits ([] : Bytes) := ⟨by decide, nofun⟩
  have hv : IsBounded e := ⟨hempty, by rw [hlength]; decide⟩
  have hfront : front = encode ([] : Bytes) ++ (Varint.encode addressLimit ++ []) := by decide
  refine ⟨hv, ?_, ⟨Utf8.ofString e.typeTag, ?_, ?_⟩, ?_⟩
  · intro h
    have hlt : (Utf8.ofString e.typeTag).length < addressLimit :=
      isAddressable_of_decode hv h.decode_encode
    rw [hlength] at hlt
    exact Nat.lt_irrefl _ hlt
  · intro hnil
    rw [hnil] at hlength
    cases hlength
  · have htext : encode e.typeTag = Varint.encode addressLimit ++ Utf8.ofString e.typeTag := by
      calc encode e.typeTag
          = Varint.encode (Utf8.ofString e.typeTag).length ++ Utf8.ofString e.typeTag := rfl
        _ = Varint.encode addressLimit ++ Utf8.ofString e.typeTag := by rw [hlength]
    calc encode e = encode ([] : Bytes) ++ encode e.typeTag := rfl
      _ = front ++ Utf8.ofString e.typeTag := by
        rw [htext, hfront, List.append_nil, List.append_assoc]
  · rw [hfront]
    exact ofBytes_of_decode_error
      (decode_encodedEntity_of_le hempty (Nat.le_refl _) (by decide) [])

end Kind

end Codec

end StakeLedger
