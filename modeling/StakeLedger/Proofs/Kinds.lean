import StakeLedger.Proofs.Readers
import StakeLedger.Proofs.Utf8Text

/-!
# The kinds of values in binary form

What travels between nodes, or is kept in a file, is of one of fourteen kinds. All of them have
composed codecs, which read back what they write as long as the lists and texts in a value are not
too long.

* `Codec.Kind` lists the kinds and `Codec.Kind.Carrier` their values.
* `Codec.Kind.IsBounded` says that the lists and texts in a value are shorter than 2^64. Only an
  encoded entity has a text, the tag of its kind; `Codec.Kind.IsAddressable` says that the tag is
  one that a reader looks for.
* `Codec.Kind.fits_iff`: a value of bounded size is read back under the second condition.
-/

namespace StakeLedger

open Codec (Lawful Composed Fits)

/-! ## Texts and the remaining records -/

/-- A text is read back if its length is not refused beforehand. -/
instance : Lawful String where
  Fits s := (Utf8.ofString s).length < Codec.addressLimit
  decode_encode_append {s} hs rest := by
    have hlength : Varint.decode .word64 (Varint.encode (Utf8.ofString s).length ++
        (Utf8.ofString s ++ rest)) = .ok ((Utf8.ofString s).length, Utf8.ofString s ++ rest) :=
      Varint.decode_encode_append_of_lt (by simp) (Nat.lt_trans hs (by decide)) _
    simp only [Codec.decode, Codec.encode, List.append_assoc, hlength, Varint.takeUnit_append,
      if_neg (Nat.not_le_of_lt hs), Utf8.decode_ofString, String.ofList_toList]

instance : Lawful Side where
  Fits _ := True
  decode_encode_append {side} _ rest := by
    cases side <;> rfl

instance : Lawful ProofStep :=
  .via (fun s : ProofStep => (s.sibling, s.side)) (fun p => ⟨p.1, p.2⟩) fun _ => rfl

instance : Lawful MembershipProof :=
  .via (fun p : MembershipProof => (p.root, p.path)) (fun p => ⟨p.1, p.2⟩) fun _ => rfl

instance {α : Type} [Codec α] [Lawful α] : Lawful (Authenticated α) :=
  .via (fun a : Authenticated α => (a.entity, a.proof)) (fun p => ⟨p.1, p.2⟩) fun _ => rfl

instance : Lawful Block :=
  .via (fun b : Block => (b.previousBlockId, b.proposer, b.height, b.transactions, b.signature))
    (fun p => ⟨p.1, p.2.1, p.2.2.1, p.2.2.2.1, p.2.2.2.2⟩) fun _ => rfl

instance : Lawful Assignment := .via Assignment.members Assignment.mk fun _ => rfl

instance : Lawful Parameters :=
  .via (fun p : Parameters =>
      (p.minStake, p.validatorsPerEntity, p.signatureThreshold, p.minTransactionsPerBlock,
        p.maxTransactionsPerBlock))
    (fun p => ⟨p.1, p.2.1, p.2.2.1, p.2.2.2.1, p.2.2.2.2⟩) fun _ => rfl

instance : Lawful SnapshotFixture :=
  .via (fun f : SnapshotFixture => (f.blockId, f.height, f.accounts))
    (fun p => ⟨p.1, p.2.1, p.2.2⟩) fun _ => rfl

instance : Lawful EncodedEntity :=
  .via (fun e : EncodedEntity => (e.bytes, e.typeTag)) (fun p => ⟨p.1, p.2⟩) fun _ => rfl

/-! ## Kinds -/

/-- The kinds of values that have a binary form of their own. -/
inductive Codec.Kind
  | identifier
  | number
  | account
  | transaction
  | validatedTransaction
  | block
  | signature
  | publicKey
  | membershipProof
  | authenticatedAccount
  | assignment
  | parameters
  | snapshotFixture
  | encodedEntity
  deriving DecidableEq

namespace Codec.Kind

/-- The values of a kind. -/
def Carrier : Kind → Type
  | identifier => Identifier
  | number => UInt64
  | account => Account
  | transaction => Transaction
  | validatedTransaction => ValidatedTransaction
  | block => Block
  | signature => Signature
  | publicKey => EncodedPublicKey
  | membershipProof => MembershipProof
  | authenticatedAccount => Authenticated Account
  | assignment => Assignment
  | parameters => Parameters
  | snapshotFixture => SnapshotFixture
  | encodedEntity => EncodedEntity

instance : (k : Kind) → Codec k.Carrier
  | identifier => inferInstanceAs (Codec Identifier)
  | number => inferInstanceAs (Codec UInt64)
  | account => inferInstanceAs (Codec Account)
  | transaction => inferInstanceAs (Codec Transaction)
  | validatedTransaction => inferInstanceAs (Codec ValidatedTransaction)
  | block => inferInstanceAs (Codec Block)
  | signature => inferInstanceAs (Codec Signature)
  | publicKey => inferInstanceAs (Codec EncodedPublicKey)
  | membershipProof => inferInstanceAs (Codec MembershipProof)
  | authenticatedAccount => inferInstanceAs (Codec (Authenticated Account))
  | assignment => inferInstanceAs (Codec Assignment)
  | parameters => inferInstanceAs (Codec Parameters)
  | snapshotFixture => inferInstanceAs (Codec SnapshotFixture)
  | encodedEntity => inferInstanceAs (Codec EncodedEntity)

instance : (k : Kind) → Lawful k.Carrier
  | identifier => inferInstanceAs (Lawful Identifier)
  | number => inferInstanceAs (Lawful UInt64)
  | account => inferInstanceAs (Lawful Account)
  | transaction => inferInstanceAs (Lawful Transaction)
  | validatedTransaction => inferInstanceAs (Lawful ValidatedTransaction)
  | block => inferInstanceAs (Lawful Block)
  | signature => inferInstanceAs (Lawful Signature)
  | publicKey => inferInstanceAs (Lawful EncodedPublicKey)
  | membershipProof => inferInstanceAs (Lawful MembershipProof)
  | authenticatedAccount => inferInstanceAs (Lawful (Authenticated Account))
  | assignment => inferInstanceAs (Lawful Assignment)
  | parameters => inferInstanceAs (Lawful Parameters)
  | snapshotFixture => inferInstanceAs (Lawful SnapshotFixture)
  | encodedEntity => inferInstanceAs (Lawful EncodedEntity)

instance : (k : Kind) → Composed k.Carrier
  | identifier => inferInstanceAs (Composed Identifier)
  | number => inferInstanceAs (Composed UInt64)
  | account => inferInstanceAs (Composed Account)
  | transaction => inferInstanceAs (Composed Transaction)
  | validatedTransaction => inferInstanceAs (Composed ValidatedTransaction)
  | block => inferInstanceAs (Composed Block)
  | signature => inferInstanceAs (Composed Signature)
  | publicKey => inferInstanceAs (Composed EncodedPublicKey)
  | membershipProof => inferInstanceAs (Composed MembershipProof)
  | authenticatedAccount => inferInstanceAs (Composed (Authenticated Account))
  | assignment => inferInstanceAs (Composed Assignment)
  | parameters => inferInstanceAs (Composed Parameters)
  | snapshotFixture => inferInstanceAs (Composed SnapshotFixture)
  | encodedEntity => inferInstanceAs (Composed EncodedEntity)

/-- Whether every list in a value has fewer than 2^64 elements, and every text fewer than 2^64
bytes. -/
def IsBounded : {k : Kind} → k.Carrier → Prop
  | encodedEntity, (e : EncodedEntity) =>
    Fits e.bytes ∧ (Utf8.ofString e.typeTag).length < 2 ^ 64
  | _, v => Fits v

/-- Whether every text in a value is shorter than what a reader of texts looks for. -/
def IsAddressable : {k : Kind} → k.Carrier → Prop
  | encodedEntity, (e : EncodedEntity) =>
    (Utf8.ofString e.typeTag).length < addressLimit
  | _, _ => True

theorem fits_iff {k : Kind} {v : k.Carrier} (hv : IsBounded v) : Fits v ↔ IsAddressable v := by
  cases k with
  | encodedEntity => exact and_iff_right hv.1
  | _ => exact iff_of_true hv trivial

end Codec.Kind

end StakeLedger
