import StakeLedger.Account
import StakeLedger.Block
import StakeLedger.Bytes.Lemmas

/-!
# Reading back what was written

An encoding is read back whatever follows it, so encodings put one after the other can be told
apart: if two byte strings that start with encodings are equal, the values are, and so is what
follows.

* `Varint.decode_encode_append` reads an integer back. A number that 64 bits do not hold is
  written, but another one is read.
* `Codec.Lawful` is the class of the codecs that read back what they write. `Codec.Fits` says
  which values these are: those with lists of fewer than 2^64 elements, which are all that
  there can be in a memory.
* `Codec.encode_append_inj` tells encodings apart.
* `Account.encode_injective` needs no bound, because no list follows the one in an account.
-/

namespace StakeLedger

namespace Varint

theorem takeUnit_append {size : Nat} {unit : Bytes} (h : unit.length = size) (rest : Bytes) :
    takeUnit size (unit ++ rest) = .ok (unit, rest) := by
  rw [takeUnit, Bytes.split?_eq_some_iff.mpr ⟨rfl, h⟩]

theorem decodeFixed_littleEndian (size n : Nat) (rest : Bytes) :
    decodeFixed size (Bytes.littleEndian size n ++ rest) = .ok (n % 256 ^ size, rest) := by
  simp only [decodeFixed, takeUnit_append (Bytes.length_littleEndian size n), Except.map,
    Bytes.ofLittleEndian_littleEndian_mod]

/-- **An integer is read back up to 2^64.** In a place for 32 bits it has to be within them. -/
theorem decode_encode_append {expected : IntegerWidth} {n : Nat}
    (h : expected = .word32 → n < 0x100000000) (rest : Bytes) :
    decode expected (encode n ++ rest) = .ok (n % 2 ^ 64, rest) := by
  unfold encode
  split
  · next hn =>
    have hb : (UInt8.ofNat n).toNat = n := by
      rw [UInt8.toNat_ofNat']
      omega
    have hlt : UInt8.ofNat n < 251 := UInt8.lt_iff_toNat_lt.mpr (hb.symm ▸ hn)
    rw [List.singleton_append, decode, if_pos hlt, hb, Nat.mod_eq_of_lt (by omega)]
  · split
    · next hn =>
      rw [List.cons_append, decode, if_neg (by decide), if_pos rfl, decodeFixed_littleEndian,
        Nat.mod_eq_of_lt (by omega), Nat.mod_eq_of_lt (by omega)]
    · split
      · next hn =>
        rw [List.cons_append, decode, if_neg (by decide), if_neg (by decide), if_pos rfl,
          decodeFixed_littleEndian, Nat.mod_eq_of_lt (by omega), Nat.mod_eq_of_lt (by omega)]
      · next hn =>
        have he : expected ≠ .word32 := fun he => hn (h he)
        rw [List.cons_append, decode, if_neg (by decide), if_neg (by decide), if_neg (by decide),
          if_pos rfl, if_neg he, decodeFixed_littleEndian, show 256 ^ 8 = 2 ^ 64 from rfl]

theorem decode_encode_append_of_lt {expected : IntegerWidth} {n : Nat}
    (h : expected = .word32 → n < 0x100000000) (hn : n < 2 ^ 64) (rest : Bytes) :
    decode expected (encode n ++ rest) = .ok (n, rest) := by
  rw [decode_encode_append h, Nat.mod_eq_of_lt hn]

theorem length_encode_pos (n : Nat) : 0 < (encode n).length := by
  unfold encode
  split
  · exact Nat.zero_lt_one
  · split
    · exact Nat.zero_lt_succ _
    · split <;> exact Nat.zero_lt_succ _

theorem length_encode_le (n : Nat) : (encode n).length ≤ 9 := by
  unfold encode
  split
  · simp
  · split
    · simp
    · split <;> simp

end Varint

namespace Codec

/-- A codec that reads back what it writes, whatever follows. -/
class Lawful (α : Type) [Codec α] where
  /-- Every list in the value has fewer than 2^64 elements. -/
  Fits : α → Prop
  /-- A value is read back. -/
  decode_encode_append {a : α} (ha : Fits a) (rest : Bytes) :
    decode (encode a ++ rest) = .ok (a, rest)

export Lawful (Fits decode_encode_append)

variable {α β : Type} [Codec α] [Codec β] [Lawful α] [Lawful β]

/-- **Encodings can be told apart,** whatever follows them. -/
theorem encode_append_inj {a b : α} {r s : Bytes} (ha : Fits a) (hb : Fits b)
    (h : encode a ++ r = encode b ++ s) : a = b ∧ r = s := by
  have hread := decode_encode_append ha r
  rw [h, decode_encode_append hb s, Except.ok.injEq, Prod.mk.injEq] at hread
  exact ⟨hread.1.symm, hread.2.symm⟩

theorem encode_inj {a b : α} (ha : Fits a) (hb : Fits b) (h : encode a = encode b) : a = b :=
  (encode_append_inj (r := []) (s := []) ha hb (by rw [h])).1

/-! ## Parts -/

instance : Lawful UInt64 where
  Fits _ := True
  decode_encode_append {n} _ rest := by
    have hread : Varint.decode .word64 (Varint.encode n.toNat ++ rest) = .ok (n.toNat, rest) :=
      Varint.decode_encode_append_of_lt (by simp) n.toNat_lt rest
    simp only [decode, encode, hread, Except.map, UInt64.ofNat_toNat]

instance : Lawful UInt8 where
  Fits _ := True
  decode_encode_append _ _ := rfl

instance : Lawful Identifier where
  Fits _ := True
  decode_encode_append {x} _ rest := by
    simp only [decode, encode, List.take_left' x.length_eq, List.drop_left' x.length_eq,
      Identifier.ofBytes?_bytes]

instance : Lawful (α × β) where
  Fits p := Fits p.1 ∧ Fits p.2
  decode_encode_append {p} hp rest := by
    simp only [decode, encode, List.append_assoc, decode_encode_append hp.1,
      decode_encode_append hp.2, Except.map]

instance : Lawful (Option α) where
  Fits o := ∀ a ∈ o, Fits a
  decode_encode_append {o} ho rest := by
    cases o with
    | none => rfl
    | some a =>
      have hread := decode_encode_append (ho a rfl) rest
      simp only [decode, encode, List.cons_append, hread]
      rfl

theorem decodeMany_append {as : List α} (h : ∀ a ∈ as, Fits a) (rest : Bytes) :
    decodeMany α as.length (as.flatMap encode ++ rest) = .ok (as, rest) := by
  induction as with
  | nil => rfl
  | cons a as ih =>
    rw [List.forall_mem_cons] at h
    rw [List.flatMap_cons, List.append_assoc, List.length_cons, decodeMany,
      decode_encode_append h.1]
    simp only [ih h.2, Except.map]

instance : Lawful (List α) where
  Fits as := as.length < 2 ^ 64 ∧ ∀ a ∈ as, Fits a
  decode_encode_append {as} has rest := by
    have hread : Varint.decode .length (Varint.encode as.length ++ (as.flatMap encode ++ rest)) =
        .ok (as.length, as.flatMap encode ++ rest) :=
      Varint.decode_encode_append_of_lt (by simp) has.1 _
    simp only [decode, encode, List.append_assoc, hread]
    exact decodeMany_append has.2 rest

/-- A record that is encoded by its fields reads back what it writes if the record is that of
its fields. -/
@[reducible]
def Lawful.via {ρ : Type} (fields : ρ → β) (build : β → ρ) (h : ∀ r, build (fields r) = r) :
    @Lawful ρ (Codec.via fields build) :=
  letI := Codec.via fields build
  { Fits r := Fits (fields r)
    decode_encode_append {r} hr rest := by
      simp only [decode, encode, decode_encode_append hr, Except.map, h] }

end Codec

/-! ## Records -/

open Codec (Lawful Fits encode encode_append_inj)

instance : Lawful SignatureAlgorithm where
  Fits _ := True
  decode_encode_append {a} _ rest := by
    cases a
    rfl

instance : Lawful Signature :=
  .via (fun s : Signature => (s.signer, s.algorithm, s.bytes)) (fun p => ⟨p.1, p.2.1, p.2.2⟩)
    fun _ => rfl

instance : Lawful Transaction :=
  .via (fun tx : Transaction =>
      (tx.referenceBlockId, tx.sender, tx.receiver, tx.amount, tx.signature))
    (fun p => ⟨p.1, p.2.1, p.2.2.1, p.2.2.2.1, p.2.2.2.2⟩) fun _ => rfl

instance : Lawful ValidatedTransaction :=
  .via (fun v : ValidatedTransaction => (v.transaction, v.certificates))
    (fun p => ⟨p.1, p.2⟩) fun _ => rfl

instance : Lawful EncodedPublicKey :=
  .via (fun k : EncodedPublicKey => (k.algorithm, k.bytes)) (fun p => ⟨p.1, p.2⟩) fun _ => rfl

instance : Lawful Account :=
  .via (fun a : Account => (a.identifier, a.stake, a.publicKey, a.lastBlockId, a.balance))
    (fun p => ⟨p.1, p.2.1, p.2.2.1, p.2.2.2.1, p.2.2.2.2⟩) fun _ => rfl

/-! ## Accounts -/

theorem Codec.encode_bytes (bytes : Bytes) :
    encode bytes = Varint.encode bytes.length ++ bytes := by
  have hflat : bytes.flatMap encode = bytes := List.flatMap_singleton' bytes
  calc encode bytes = Varint.encode bytes.length ++ bytes.flatMap encode := rfl
    _ = Varint.encode bytes.length ++ bytes := by rw [hflat]

/-- Byte strings of any length can be told apart, if what follows them differs by less than
2^64 in length. -/
theorem Codec.encode_bytes_append_inj {x y r s : Bytes} (hr : r.length < s.length + 2 ^ 64)
    (hs : s.length < r.length + 2 ^ 64) (h : encode x ++ r = encode y ++ s) :
    x = y ∧ r = s := by
  rw [encode_bytes, encode_bytes, List.append_assoc, List.append_assoc] at h
  have hread := @Varint.decode_encode_append .length x.length (by simp) (x ++ r)
  rw [h, Varint.decode_encode_append (by simp), Except.ok.injEq, Prod.mk.injEq] at hread
  obtain ⟨hmod, hrest⟩ := hread
  have hlen : y.length + s.length = x.length + r.length := by
    rw [← List.length_append, hrest, List.length_append]
  obtain ⟨hyx, hsr⟩ := List.append_inj hrest (by omega)
  exact ⟨hyx.symm, hsr.symm⟩

/-- An account of fewer than 2^64 bytes is read back. -/
theorem Account.fits_of_length_lt {a : Account} (h : (encode a).length < 2 ^ 64) : Fits a := by
  have hkey : encode a = encode a.identifier ++ (encode a.stake ++
      (encode a.publicKey.algorithm ++ encode a.publicKey.bytes ++
        (encode a.lastBlockId ++ encode a.balance))) := rfl
  rw [hkey, Codec.encode_bytes] at h
  simp only [List.length_append] at h
  have hbytes : a.publicKey.bytes.length < 2 ^ 64 := by omega
  exact ⟨trivial, trivial, ⟨trivial, hbytes, fun _ _ => trivial⟩, trivial, trivial⟩

/-- **The encoding of an account determines it.** -/
theorem Account.encode_injective {a b : Account} (h : encode a = encode b) : a = b := by
  obtain ⟨hid, h⟩ := encode_append_inj (α := Identifier) trivial trivial h
  obtain ⟨hstake, h⟩ := encode_append_inj (α := UInt64) trivial trivial h
  replace h : (encode a.publicKey.algorithm ++ encode a.publicKey.bytes) ++
        (encode a.lastBlockId ++ encode a.balance) =
      (encode b.publicKey.algorithm ++ encode b.publicKey.bytes) ++
        (encode b.lastBlockId ++ encode b.balance) := h
  rw [List.append_assoc, List.append_assoc] at h
  obtain ⟨halgorithm, h⟩ := encode_append_inj trivial trivial h
  have hlength : ∀ c : Account,
      32 < (encode c.lastBlockId ++ encode c.balance).length ∧
        (encode c.lastBlockId ++ encode c.balance).length ≤ 41 := fun c => by
    have hlast : (encode c.lastBlockId).length = 32 := c.lastBlockId.length_eq
    have hpos := Varint.length_encode_pos c.balance.toNat
    have hle := Varint.length_encode_le c.balance.toNat
    rw [List.length_append, hlast]
    exact ⟨Nat.lt_add_of_pos_right hpos, Nat.add_le_add_left hle 32⟩
  have ha := hlength a
  have hb := hlength b
  obtain ⟨hbytes, h⟩ := Codec.encode_bytes_append_inj (by omega) (by omega) h
  obtain ⟨hlast, h⟩ := encode_append_inj trivial trivial h
  have hbalance := Codec.encode_inj trivial trivial h
  obtain ⟨_, _, ⟨_, _⟩, _, _⟩ := a
  obtain ⟨_, _, ⟨_, _⟩, _, _⟩ := b
  cases hid
  cases hstake
  cases halgorithm
  cases hbytes
  cases hlast
  cases hbalance
  rfl

end StakeLedger
