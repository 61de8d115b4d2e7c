import StakeLedger.Assignment
import StakeLedger.EncodedEntity
import StakeLedger.Merkle.Proof
import StakeLedger.Parameters
import StakeLedger.Proofs.Encoding
import StakeLedger.Proofs.Outcomes
import StakeLedger.Snapshot.Fixture

/-!
# How codecs read

The decoders of all kinds are put together in a few ways: a value is changed, a reader is followed
by another one that depends on its value, or by one that depends on the first byte. What such a
composition reads is what its parts read, one after the other.

* `Codec.Reader.mapValue`, `Codec.Reader.andThen` and `Codec.Reader.headed` are the compositions;
  `mapValue_eq_ok_iff`, `andThen_eq_ok_iff` and `headed_eq_ok_iff` take their results apart.
* `Codec.decode_pair`, `Codec.decode_list` and their likes write the decoders as compositions.
* `Codec.Composed` is the class of the codecs that are built from identifiers, integers, bytes,
  alternatives and texts by pairs, optional values, lists and records. A property of all codecs is
  shown by induction on it.
-/

namespace StakeLedger.Codec

/-! ## Compositions -/

namespace Reader

variable {α β : Type} {read : Reader α}

/-- The reader that changes the value. -/
def mapValue (read : Reader α) (f : α → β) : Reader β := fun input =>
  (read input).map fun (a, rest) => (f a, rest)

/-- The reader that goes on in a way that depends on the value. -/
def andThen (read : Reader α) (next : α → Reader β) : Reader β := fun input =>
  match read input with
  | .error cause => .error cause
  | .ok (a, rest) => next a rest

/-- The reader that goes on in a way that depends on the first byte. -/
def headed (next : UInt8 → Reader α) : Reader α
  | [] => .error (.refused (.unexpectedEnd 1))
  | b :: rest => next b rest

theorem mapValue_eq_ok_iff {f : α → β} {input rest : Bytes} {b : β} :
    mapValue read f input = .ok (b, rest) ↔ ∃ a, read input = .ok (a, rest) ∧ f a = b := by
  constructor
  · intro h
    obtain ⟨⟨a, left⟩, ha, heq⟩ := exists_of_map_eq_ok h
    obtain ⟨hb, rfl⟩ := Prod.mk.inj heq
    exact ⟨a, ha, hb⟩
  · rintro ⟨a, ha, rfl⟩
    rw [mapValue, ha, Except.map]

theorem andThen_eq_ok_iff {next : α → Reader β} {input rest : Bytes} {b : β} :
    andThen read next input = .ok (b, rest) ↔
      ∃ a middle, read input = .ok (a, middle) ∧ next a middle = .ok (b, rest) := by
  rw [andThen]
  cases read input with
  | error cause => exact ⟨nofun, nofun⟩
  | ok parts =>
    refine ⟨fun h => ⟨parts.1, parts.2, rfl, h⟩, ?_⟩
    rintro ⟨a, middle, hparts, h⟩
    cases hparts
    exact h

theorem headed_eq_ok_iff {next : UInt8 → Reader α} {input rest : Bytes} {a : α} :
    headed next input = .ok (a, rest) ↔
      ∃ b tail, input = b :: tail ∧ next b tail = .ok (a, rest) := by
  cases input with
  | nil => exact ⟨nofun, nofun⟩
  | cons b tail =>
    refine ⟨fun h => ⟨b, tail, rfl, h⟩, ?_⟩
    rintro ⟨b', tail', hinput, h⟩
    cases hinput
    exact h

end Reader

/-! ## Decoders as compositions -/

open Reader

theorem takeUnit_eq_ok_iff {size : Nat} {input unit rest : Bytes} :
    Varint.takeUnit size input = .ok (unit, rest) ↔ input = unit ++ rest ∧ unit.length = size := by
  rw [← Bytes.split?_eq_some_iff, Varint.takeUnit]
  cases Bytes.split? size input <;> simp

theorem decode_varint (expected : IntegerWidth) :
    Varint.decode expected = headed fun b rest =>
      if b < 251 then .ok (b.toNat, rest)
      else if b = 251 then Varint.decodeFixed 2 rest
      else if b = 252 then Varint.decodeFixed 4 rest
      else if b = 253 then
        if expected = .word32 then .error (.refused (.integerWidth expected .word64))
        else Varint.decodeFixed 8 rest
      else .error (.refused (.integerWidth (Varint.statedWidth expected (rest.length + 1))
        (if b = 254 then .word128 else .reserved))) := by
  funext input
  cases input <;> rfl

theorem decodeFixed_eq (size : Nat) :
    Varint.decodeFixed size = mapValue (Varint.takeUnit size) Bytes.ofLittleEndian := rfl

theorem decode_word : decode (α := UInt64) = mapValue (Varint.decode .word64) UInt64.ofNat := rfl

theorem decode_byte : decode (α := UInt8) = headed fun b rest => .ok (b, rest) := by
  funext input
  cases input <;> rfl

theorem decode_alternative (n : Nat) :
    decode (α := Fin n) = andThen (Varint.decode .word32) fun found rest =>
      if h : found < n then .ok (⟨found, h⟩, rest)
      else .error (.refused (.unknownAlternative found n)) := by
  funext input
  simp only [decode, andThen]
  cases Varint.decode .word32 input <;> rfl

/-- A text after its length is known. -/
def readText (n : Nat) : Reader String :=
  andThen (Varint.takeUnit n) fun body rest =>
    match Utf8.decode body with
    | .error fault => .error (.refused (.text fault))
    | .ok text => .ok (String.ofList text, rest)

theorem decode_text :
    decode (α := String) = andThen (Varint.decode .word64) fun n rest =>
      if addressLimit ≤ n then .error (.unaddressable n) else readText n rest := by
  funext input
  simp only [decode, readText, andThen]
  cases Varint.decode .word64 input with
  | error cause => rfl
  | ok parts =>
    obtain ⟨n, rest⟩ := parts
    simp only
    cases Varint.takeUnit n rest <;> rfl

theorem decode_identifier_eq_ok_iff {x : Identifier} {input rest : Bytes} :
    decode input = .ok (x, rest) ↔ input = x.bytes ++ rest := by
  constructor
  · intro h
    simp only [decode] at h
    split at h
    · next y hy =>
      cases h
      rw [Identifier.bytes_of_ofBytes? hy, List.take_append_drop]
    · cases h
  · rintro rfl
    exact decode_encode_append (a := x) trivial rest

/-- Fewer bytes than an identifier has are refused. -/
theorem decode_identifier_of_length_lt {input : Bytes} (h : input.length < 32) :
    decode (α := Identifier) input = .error (.refused (.unexpectedEnd 1)) := by
  have hnone : Identifier.ofBytes? (input.take 32) = none := by
    rw [Identifier.ofBytes?, dif_neg]
    rw [List.length_take]
    omega
  simp only [decode, hnone]

variable {α β : Type} [Codec α] [Codec β]

theorem decode_pair :
    decode (α := α × β) = andThen decode fun a => mapValue decode fun b => (a, b) := rfl

theorem decode_option :
    decode (α := Option α) = headed fun b rest =>
      if b = 0 then .ok (none, rest)
      else if b = 1 then mapValue decode some rest
      else .error (.refused (.optionMark b)) := by
  funext input
  cases input <;> rfl

theorem decodeMany_succ (n : Nat) :
    decodeMany α (n + 1) = andThen decode fun a => mapValue (decodeMany α n) (a :: ·) := rfl

theorem decode_list : decode (α := List α) = andThen (Varint.decode .length) (decodeMany α) := by
  funext input
  simp only [decode, andThen]
  cases Varint.decode .length input <;> rfl

/-! ## Values that take up all the bytes -/

theorem ofBytes_eq_ok_iff {bytes : Bytes} {a : α} :
    ofBytes bytes = .ok a ↔ decode bytes = .ok (a, []) := by
  rw [ofBytes]
  cases decode (α := α) bytes with
  | error cause => simp
  | ok parts =>
    obtain ⟨b, rest⟩ := parts
    cases rest <;> simp

/-- A value that is read in front of any bytes takes up all the bytes if none follow. -/
theorem ofBytes_of_decode_append {bytes : Bytes} {a : α}
    (h : ∀ rest, decode (bytes ++ rest) = .ok (a, rest)) : ofBytes bytes = .ok a := by
  have hread := h []
  rw [List.append_nil] at hread
  exact ofBytes_eq_ok_iff.mpr hread

theorem ofBytes_of_decode_error {bytes : Bytes} {fault : ReadFault DecodeError}
    (h : decode (α := α) bytes = .error fault) :
    ofBytes (α := α) bytes = .error (fault.map fun cause => .codec (.decode cause)) := by
  rw [ofBytes, h]

/-- Bytes after the value are refused. -/
theorem ofBytes_append_of_decode {a : α} {front rest : Bytes} (hrest : rest ≠ [])
    (h : decode (front ++ rest) = .ok (a, rest)) :
    ofBytes (α := α) (front ++ rest) =
      .error (.refused (.codec (.trailing front.length (front.length + rest.length)))) := by
  obtain ⟨b, rest, rfl⟩ := List.exists_cons_of_ne_nil hrest
  rw [ofBytes, h]
  simp only [List.length_append, Nat.add_sub_cancel]

/-- An encoded entity is read back. -/
theorem decode_ofEntity {α : Type} [Entity α] [Lawful α] [Robust α] {a : α} (ha : Fits a) :
    (EncodedEntity.ofEntity a).decode (Entity.typeTag α) = .ok a := by
  have htag : (EncodedEntity.ofEntity a).typeTag = Entity.typeTag α := rfl
  rw [EncodedEntity.decode, if_neg (not_not_intro htag)]
  exact read_eq_ok_iff.mpr (ofBytes_of_decode_append (decode_encode_append ha))

/-! ## Composed codecs -/

/-- A codec that is built from the elementary ones. -/
class inductive Composed : (α : Type) → [Codec α] → Prop
  | identifier : Composed Identifier
  | word : Composed UInt64
  | byte : Composed UInt8
  | alternative (n : Nat) : Composed (Fin n)
  | text : Composed String
  | pair {α β : Type} [Codec α] [Codec β] : Composed α → Composed β → Composed (α × β)
  | option {α : Type} [Codec α] : Composed α → Composed (Option α)
  | list {α : Type} [Codec α] : Composed α → Composed (List α)
  /-- A record, of which the fields can be chosen freely. -/
  | record {ρ β : Type} [Codec β] (fields : ρ → β) (build : β → ρ) :
      (∀ b, fields (build b) = b) → Composed β → @Composed ρ (Codec.via fields build)

attribute [instance] Composed.identifier Composed.word Composed.byte Composed.alternative
  Composed.text

instance [Composed α] [Composed β] : Composed (α × β) := .pair inferInstance inferInstance

instance [Composed α] : Composed (Option α) := .option inferInstance

instance [Composed α] : Composed (List α) := .list inferInstance

end StakeLedger.Codec

/-! ## Records -/

namespace StakeLedger

open Codec (Composed)

instance : Composed SignatureAlgorithm :=
  .record SignatureAlgorithm.index SignatureAlgorithm.ofIndex (fun _ => Subsingleton.elim _ _)
    inferInstance

instance : Composed Signature :=
  .record (fun s : Signature => (s.signer, s.algorithm, s.bytes)) (fun p => ⟨p.1, p.2.1, p.2.2⟩)
    (fun _ => rfl) inferInstance

instance : Composed Transaction :=
  .record (fun tx : Transaction =>
      (tx.referenceBlockId, tx.sender, tx.receiver, tx.amount, tx.signature))
    (fun p => ⟨p.1, p.2.1, p.2.2.1, p.2.2.2.1, p.2.2.2.2⟩) (fun _ => rfl) inferInstance

instance : Composed ValidatedTransaction :=
  .record (fun v : ValidatedTransaction => (v.transaction, v.certificates))
    (fun p => ⟨p.1, p.2⟩) (fun _ => rfl) inferInstance

instance : Composed Block :=
  .record (fun b : Block =>
      (b.previousBlockId, b.proposer, b.height, b.transactions, b.signature))
    (fun p => ⟨p.1, p.2.1, p.2.2.1, p.2.2.2.1, p.2.2.2.2⟩) (fun _ => rfl) inferInstance

instance : Composed EncodedPublicKey :=
  .record (fun k : EncodedPublicKey => (k.algorithm, k.bytes)) (fun p => ⟨p.1, p.2⟩)
    (fun _ => rfl) inferInstance

instance : Composed Account :=
  .record (fun a : Account => (a.identifier, a.stake, a.publicKey, a.lastBlockId, a.balance))
    (fun p => ⟨p.1, p.2.1, p.2.2.1, p.2.2.2.1, p.2.2.2.2⟩) (fun _ => rfl) inferInstance

instance : Composed Side := .record Side.index Side.ofIndex (by decide) inferInstance

instance : Composed ProofStep :=
  .record (fun s : ProofStep => (s.sibling, s.side)) (fun p => ⟨p.1, p.2⟩) (fun _ => rfl)
    inferInstance

instance : Composed MembershipProof :=
  .record (fun p : MembershipProof => (p.root, p.path)) (fun p => ⟨p.1, p.2⟩) (fun _ => rfl)
    inferInstance

instance {α : Type} [Codec α] [Composed α] : Composed (Authenticated α) :=
  .record (fun a : Authenticated α => (a.entity, a.proof)) (fun p => ⟨p.1, p.2⟩) (fun _ => rfl)
    inferInstance

instance : Composed Assignment :=
  .record Assignment.members Assignment.mk (fun _ => rfl) inferInstance

instance : Composed Parameters :=
  .record (fun p : Parameters =>
      (p.minStake, p.validatorsPerEntity, p.signatureThreshold, p.minTransactionsPerBlock,
        p.maxTransactionsPerBlock))
    (fun p => ⟨p.1, p.2.1, p.2.2.1, p.2.2.2.1, p.2.2.2.2⟩) (fun _ => rfl) inferInstance

instance : Composed SnapshotFixture :=
  .record (fun f : SnapshotFixture => (f.blockId, f.height, f.accounts))
    (fun p => ⟨p.1, p.2.1, p.2.2⟩) (fun _ => rfl) inferInstance

instance : Composed EncodedEntity :=
  .record (fun e : EncodedEntity => (e.bytes, e.typeTag)) (fun p => ⟨p.1, p.2⟩) (fun _ => rfl)
    inferInstance

end StakeLedger
