import StakeLedger.Proofs.Kinds

/-!
# The shortest form of a value

An integer may be read from more bytes than it needs, and there is an integer in front of each
list, text and alternative, so that many byte strings are read as one value. The one that is
written is the shortest of them, and no other is as short: the value is read back from it, and
wherever the bytes that were read differ from what is written, they are longer.

* `Bytes.AtMost` compares byte strings: the first is the second, or shorter. It is kept when byte
  strings are put one after the other.
* `Codec.Reader.Shortest` says that what a reader accepts is at least as long as what is written
  for the value; `Codec.Composed.shortest` shows it for all codecs.
* `Codec.normalize` decodes and encodes again.
* `Codec.Kind.shortest_of_ofBytes` is the main statement.
-/

namespace StakeLedger

/-! ## Shorter forms -/

/-- Whether a byte string is another one, or shorter. -/
def Bytes.AtMost (x y : Bytes) : Prop := y = x ∨ x.length < y.length

namespace Bytes.AtMost

variable {x y z w : Bytes}

theorem refl (x : Bytes) : AtMost x x := .inl rfl

theorem length_le (h : AtMost x y) : x.length ≤ y.length := by
  rcases h with rfl | h
  · exact Nat.le_refl _
  · exact Nat.le_of_lt h

theorem append (h : AtMost x y) (h' : AtMost z w) : AtMost (x ++ z) (y ++ w) := by
  have hle := h.length_le
  have hle' := h'.length_le
  rcases h with rfl | h
  · rcases h' with rfl | h'
    · exact .refl _
    · exact .inr (by simp only [List.length_append]; omega)
  · exact .inr (by simp only [List.length_append]; omega)

theorem eq_of_length_le (h : AtMost x y) (hle : y.length ≤ x.length) : y = x :=
  h.resolve_right (Nat.not_lt_of_le hle)

end Bytes.AtMost

/-! ## Integers -/

namespace Varint

open Bytes (AtMost)

theorem decodeFixed_eq_ok_iff {size n : Nat} {input rest : Bytes} :
    decodeFixed size input = .ok (n, rest) ↔
      ∃ unit, input = unit ++ rest ∧ unit.length = size ∧ Bytes.ofLittleEndian unit = n := by
  rw [Codec.decodeFixed_eq, Codec.Reader.mapValue_eq_ok_iff]
  simp only [Codec.takeUnit_eq_ok_iff, and_assoc]

/-- The markers of the longer integers, each with the number of bytes that follow it. -/
def markers : List (UInt8 × Nat) := [(251, 2), (252, 4), (253, 8)]

/-- What is written for a number is at most as long as the marker and the bytes that it was read
from. -/
theorem encode_atMost_of_marker {marker : UInt8} {size : Nat} {unit : Bytes}
    (h : (marker, size) ∈ markers) (hunit : unit.length = size) :
    AtMost (encode (Bytes.ofLittleEndian unit)) (marker :: unit) := by
  have hlt := Bytes.ofLittleEndian_lt unit
  have hback := Bytes.littleEndian_ofLittleEndian unit
  rw [hunit] at hlt hback
  simp only [markers, List.mem_cons, Prod.mk.injEq, List.not_mem_nil, or_false] at h
  unfold encode
  rcases h with ⟨rfl, rfl⟩ | ⟨rfl, rfl⟩ | ⟨rfl, rfl⟩
  · split
    · exact .inr (by simp [hunit])
    · rw [if_pos (by omega), hback]
      exact .refl _
  · split
    · exact .inr (by simp [hunit])
    · split
      · exact .inr (by simp [hunit])
      · rw [if_pos (by omega), hback]
        exact .refl _
  · split
    · exact .inr (by simp [hunit])
    · split
      · exact .inr (by simp [hunit])
      · split
        · exact .inr (by simp [hunit])
        · rw [hback]
          exact .refl _

theorem encode_atMost_of_decodeFixed {marker : UInt8} {size n : Nat} {input rest : Bytes}
    (h : (marker, size) ∈ markers) (hn : decodeFixed size input = .ok (n, rest)) :
    n < 256 ^ size ∧ ∃ front, marker :: input = front ++ rest ∧ AtMost (encode n) front := by
  obtain ⟨unit, rfl, hunit, rfl⟩ := decodeFixed_eq_ok_iff.mp hn
  exact ⟨hunit ▸ Bytes.ofLittleEndian_lt unit, marker :: unit, rfl, encode_atMost_of_marker h hunit⟩

/-- **An integer is written in at most the bytes that it was read from,** and fits its place. -/
theorem encode_atMost_of_decode {expected : IntegerWidth} {n : Nat} {input rest : Bytes}
    (h : decode expected input = .ok (n, rest)) :
    (expected = .word32 → n < 0x100000000) ∧ n < 2 ^ 64 ∧
      ∃ front, input = front ++ rest ∧ AtMost (encode n) front := by
  rw [Codec.decode_varint, Codec.Reader.headed_eq_ok_iff] at h
  obtain ⟨b, tail, rfl, h⟩ := h
  split at h
  · next hb =>
    cases h
    have hlt : b.toNat < 251 := UInt8.lt_iff_toNat_lt.mp hb
    have hencode : encode b.toNat = [b] := by rw [encode, if_pos hlt, UInt8.ofNat_toNat]
    exact ⟨fun _ => by omega, by omega, [b], rfl, hencode ▸ .refl _⟩
  split at h
  · next hb =>
    have hmarker : (b, 2) ∈ markers := by simp [hb, markers]
    obtain ⟨hlt, hfront⟩ := encode_atMost_of_decodeFixed hmarker h
    exact ⟨fun _ => by omega, by omega, hfront⟩
  split at h
  · next hb =>
    have hmarker : (b, 4) ∈ markers := by simp [hb, markers]
    obtain ⟨hlt, hfront⟩ := encode_atMost_of_decodeFixed hmarker h
    exact ⟨fun _ => by omega, by omega, hfront⟩
  split at h
  · next hb =>
    split at h
    · cases h
    · next hexpected =>
      have hmarker : (b, 8) ∈ markers := by simp [hb, markers]
      obtain ⟨hlt, hfront⟩ := encode_atMost_of_decodeFixed hmarker h
      exact ⟨fun heq => absurd heq hexpected, hlt, hfront⟩
  · cases h

end Varint

/-! ## Readers -/

namespace Codec

open Bytes (AtMost)

namespace Reader

variable {α β : Type} {read : Reader α} {write : α → Bytes}

/-- Whether a reader accepts for a value only what is at least as long as what is written for it,
and no other bytes of the same length; and whether it accepts what is written. -/
def Shortest (read : Reader α) (write : α → Bytes) : Prop :=
  ∀ ⦃input rest : Bytes⦄ ⦃a : α⦄, read input = .ok (a, rest) →
    (∃ front, input = front ++ rest ∧ AtMost (write a) front) ∧
      ∀ tail, read (write a ++ tail) = .ok (a, tail)

theorem shortest_pure {a : α} (h : write a = []) :
    Shortest (fun input => .ok (a, input)) write := by
  intro input rest b hb
  cases hb
  rw [h]
  exact ⟨⟨[], rfl, .refl []⟩, fun _ => rfl⟩

theorem shortest_error {fault : Bytes → ReadFault DecodeError} :
    Shortest (fun input => .error (fault input)) write := by
  intro input rest a h
  cases h

theorem Shortest.mapValue (hread : Shortest read write) {f : α → β} {write' : β → Bytes}
    (hwrite : ∀ ⦃a input rest⦄, read input = .ok (a, rest) → write' (f a) = write a) :
    Shortest (mapValue read f) write' := by
  intro input rest b h
  obtain ⟨a, ha, rfl⟩ := mapValue_eq_ok_iff.mp h
  obtain ⟨hfront, hback⟩ := hread ha
  rw [hwrite ha]
  exact ⟨hfront, fun tail => mapValue_eq_ok_iff.mpr ⟨a, hback tail, rfl⟩⟩

/-- One reader after the other, if what is written for the second value is preceded by what is
written for the first one. -/
theorem Shortest.andThen (hread : Shortest read write) {next : α → Reader β} {whole : β → Bytes}
    (write' : β → Bytes) (hnext : ∀ a, Shortest (next a) write')
    (hwhole : ∀ ⦃a middle b rest⦄, next a middle = .ok (b, rest) → whole b = write a ++ write' b) :
    Shortest (andThen read next) whole := by
  intro input rest b h
  obtain ⟨a, middle, ha, hb⟩ := andThen_eq_ok_iff.mp h
  obtain ⟨⟨front, rfl, hfront⟩, hback⟩ := hread ha
  obtain ⟨⟨front', rfl, hfront'⟩, hback'⟩ := hnext a hb
  rw [hwhole hb]
  refine ⟨⟨front ++ front', by rw [List.append_assoc], hfront.append hfront'⟩, fun tail => ?_⟩
  rw [List.append_assoc]
  exact andThen_eq_ok_iff.mpr ⟨a, write' b ++ tail, hback _, hback' tail⟩

theorem shortest_headed {next : UInt8 → Reader α} (write' : α → Bytes)
    (hnext : ∀ b, Shortest (next b) write')
    (hwrite : ∀ ⦃b tail a rest⦄, next b tail = .ok (a, rest) → write a = b :: write' a) :
    Shortest (headed next) write := by
  intro input rest a h
  obtain ⟨b, tail, rfl, hb⟩ := headed_eq_ok_iff.mp h
  obtain ⟨⟨front, rfl, hfront⟩, hback⟩ := hnext b hb
  rw [hwrite hb]
  exact ⟨⟨b :: front, rfl, .append (.refl [b]) hfront⟩, hback⟩

theorem Shortest.ite {p : Prop} [Decidable p] {yes no : Reader α} (hyes : Shortest yes write)
    (hno : Shortest no write) :
    Shortest (fun input => if p then yes input else no input) write := by
  split
  · exact hyes
  · exact hno

theorem shortest_varint (expected : IntegerWidth) :
    Shortest (Varint.decode expected) Varint.encode := by
  intro input rest n h
  obtain ⟨hwidth, hlt, hfront⟩ := Varint.encode_atMost_of_decode h
  exact ⟨hfront, Varint.decode_encode_append_of_lt hwidth hlt⟩

theorem readText_eq_ok_iff {n : Nat} {input rest : Bytes} {s : String} :
    readText n input = .ok (s, rest) ↔
      input = Utf8.ofString s ++ rest ∧ (Utf8.ofString s).length = n := by
  constructor
  · intro h
    obtain ⟨body, middle, hbody, h⟩ := andThen_eq_ok_iff.mp h
    split at h
    · cases h
    · next text htext =>
      cases h
      rw [Utf8.ofString_of_decode htext]
      exact takeUnit_eq_ok_iff.mp hbody
  · rintro ⟨rfl, hlength⟩
    rw [readText, andThen, Varint.takeUnit_append hlength]
    simp only [Utf8.decode_ofString, String.ofList_toList]

theorem shortest_readText (n : Nat) : Shortest (readText n) Utf8.ofString := by
  intro input rest s h
  obtain ⟨rfl, hlength⟩ := readText_eq_ok_iff.mp h
  exact ⟨⟨_, rfl, .refl _⟩, fun tail => readText_eq_ok_iff.mpr ⟨rfl, hlength⟩⟩

theorem length_of_decodeMany [Codec α] {n : Nat} {input rest : Bytes} {as : List α}
    (h : decodeMany α n input = .ok (as, rest)) : as.length = n := by
  induction n generalizing input as with
  | zero =>
    cases h
    rfl
  | succ n ih =>
    obtain ⟨a, middle, -, h⟩ := andThen_eq_ok_iff.mp (decodeMany_succ (α := α) n ▸ h)
    obtain ⟨as, has, rfl⟩ := mapValue_eq_ok_iff.mp h
    rw [List.length_cons, ih has]

theorem shortest_decodeMany [Codec α] (h : Shortest (decode (α := α)) encode) (n : Nat) :
    Shortest (decodeMany α n) fun as => as.flatMap encode := by
  induction n with
  | zero => exact shortest_pure rfl
  | succ n ih =>
    rw [decodeMany_succ]
    refine h.andThen (fun as => as.tail.flatMap encode)
      (fun a => ih.mapValue fun _ _ _ _ => rfl) ?_
    intro a middle as rest has
    obtain ⟨as, -, rfl⟩ := mapValue_eq_ok_iff.mp has
    rfl

end Reader

open Reader

variable {α : Type} [Codec α]

/-- **No codec reads a value from fewer bytes than it writes for it,** nor from as many others. -/
theorem Composed.shortest (h : Composed α) : Shortest (decode (α := α)) encode := by
  induction h with
  | identifier =>
    intro input rest x h
    exact ⟨⟨x.bytes, decode_identifier_eq_ok_iff.mp h, .refl _⟩, decode_encode_append trivial⟩
  | word =>
    rw [decode_word]
    refine (shortest_varint .word64).mapValue fun n input rest h => ?_
    obtain ⟨-, hlt, -⟩ := Varint.encode_atMost_of_decode h
    exact congrArg Varint.encode (UInt64.toNat_ofNat_of_lt' hlt)
  | byte =>
    rw [decode_byte]
    refine shortest_headed (fun _ => []) (fun b => shortest_pure rfl) ?_
    intro b tail a rest h
    cases h
    rfl
  | alternative n =>
    rw [decode_alternative]
    refine (shortest_varint .word32).andThen (fun _ => []) (fun found => ?_) ?_
    · by_cases hfound : found < n
      · simp only [dif_pos hfound]
        exact shortest_pure rfl
      · simp only [dif_neg hfound]
        exact shortest_error
    · intro found middle i rest h
      split at h
      · cases h
        exact (List.append_nil _).symm
      · cases h
  | text =>
    rw [decode_text]
    refine (shortest_varint .word64).andThen Utf8.ofString
      (fun n => shortest_error.ite (shortest_readText n)) ?_
    intro n middle s rest h
    split at h
    · cases h
    · rw [← (readText_eq_ok_iff.mp h).2]
      rfl
  | pair _ _ iha ihb =>
    rw [decode_pair]
    refine iha.andThen (fun p => encode p.2) (fun a => ihb.mapValue fun _ _ _ _ => rfl) ?_
    intro a middle p rest h
    obtain ⟨b, -, rfl⟩ := mapValue_eq_ok_iff.mp h
    rfl
  | option _ ih =>
    rw [decode_option]
    refine shortest_headed (fun o => o.elim [] encode) (fun b => ?_) ?_
    · exact .ite (shortest_pure rfl) (.ite (ih.mapValue fun _ _ _ _ => rfl) shortest_error)
    · intro b tail o rest h
      split at h
      · next hb =>
        cases h
        rw [hb]
        rfl
      split at h
      · next hb =>
        obtain ⟨a, -, rfl⟩ := mapValue_eq_ok_iff.mp h
        rw [hb]
        rfl
      · cases h
  | list _ ih =>
    rw [decode_list]
    refine (shortest_varint .length).andThen (fun as => as.flatMap encode)
      (shortest_decodeMany ih) ?_
    intro n middle as rest h
    rw [← length_of_decodeMany h]
    rfl
  | record fields build hfields _ ih =>
    exact ih.mapValue fun b _ _ _ => congrArg encode (hfields b)

/-! ## Normal forms -/

/-- The encoding of the value that bytes are read as. -/
def normalize (α : Type) [Codec α] (bytes : Bytes) : Except (ReadFault LedgerError) Bytes :=
  (ofBytes (α := α) bytes).map encode

theorem encode_atMost_of_ofBytes [hα : Composed α] {bytes : Bytes} {a : α}
    (h : ofBytes bytes = .ok a) : AtMost (encode a) bytes := by
  obtain ⟨⟨front, hfront, hle⟩, -⟩ := hα.shortest (ofBytes_eq_ok_iff.mp h)
  rw [hfront, List.append_nil]
  exact hle

theorem ofBytes_encode_of_ofBytes [hα : Composed α] {bytes : Bytes} {a : α}
    (h : ofBytes bytes = .ok a) : ofBytes (encode a) = .ok a := by
  obtain ⟨-, hback⟩ := hα.shortest (ofBytes_eq_ok_iff.mp h)
  exact ofBytes_of_decode_append hback

namespace Kind

/-- **What is written is the one shortest form.** Bytes that are read as a value are its encoding,
or longer. So to decode and to encode again makes nothing longer, and does nothing the second time;
and two byte strings that are read as one value are equal if none that is read as it is shorter than
they are. -/
theorem shortest_of_ofBytes {k : Kind} {bytes : Bytes} {v : k.Carrier} (h : ofBytes bytes = .ok v) :
    (bytes = encode v ∨ (encode v).length < bytes.length) ∧
    (∃ normal, normalize k.Carrier bytes = .ok normal ∧ normal.length ≤ bytes.length ∧
      normalize k.Carrier normal = .ok normal) ∧
    (∀ other, ofBytes other = .ok v → other.length = bytes.length →
      (∀ third, ofBytes third = .ok v → bytes.length ≤ third.length) → other = bytes) := by
  have hback := ofBytes_encode_of_ofBytes h
  have hle := encode_atMost_of_ofBytes h
  refine ⟨hle, ⟨encode v, ?_, hle.length_le, ?_⟩, ?_⟩
  · rw [normalize, h, Except.map]
  · rw [normalize, hback, Except.map]
  · intro other hother hlength hleast
    have hshort := hleast (encode v) hback
    rw [hle.eq_of_length_le hshort,
      (encode_atMost_of_ofBytes hother).eq_of_length_le (hlength ▸ hshort)]

/-- A key of one byte, its algorithm in three bytes and its length in five. -/
theorem shortest_of_ofBytes_sample :
    let bytes : Bytes := [251, 0, 0, 252, 1, 0, 0, 0, 7]
    let key : publicKey.Carrier := EncodedPublicKey.mk .ed25519 [7]
    ofBytes bytes = .ok key ∧ encode key = [0, 1, 7] ∧ (encode key).length < bytes.length := by
  intro bytes key
  have h : ofBytes bytes = .ok key := rfl
  have hencode : encode key = [0, 1, 7] := rfl
  have hne : bytes ≠ encode key := by
    rw [hencode]
    decide
  exact ⟨h, hencode, (shortest_of_ofBytes h).1.resolve_left hne⟩

end Kind

end Codec

end StakeLedger
