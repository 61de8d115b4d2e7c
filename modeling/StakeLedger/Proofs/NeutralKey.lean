import StakeLedger.Keys
import StakeLedger.Proofs.CurvePoints

/-!
# The key that is the neutral element

What is recomputed to check a signature is the point `s·B - k·A` of the curve. A key may be any
point, also the neutral element, and for this one the message does not count: one and the same
signature is valid for all of them.

* `VerifyingKey.represents_expected` is the point that is recomputed, and
  `VerifyingKey.verify_eq_true_iff` says when a signature is valid.
* `PublicKey.verifyEntity_neutral` is the signature of the neutral element that is valid for every
  entity.
-/

namespace StakeLedger

namespace Ed25519

namespace VerifyingKey

/-! ## Valid signatures -/

variable {key : VerifyingKey} {A : curve.Point} {signature : Bytes}

theorem challenge_lt (r bytes message : Bytes) : challenge r bytes message < order :=
  Nat.mod_lt _ prime_order.pos

/-- The point that a signature has to start with. -/
theorem represents_expected (hA : key.point.Represents A) {B : curve.Point}
    (hB : Point.base.Represents B) {s : Nat} (hs : s < order) (r message : Bytes) :
    ((Point.multiple s Point.base).add
      (Point.multiple (challenge r key.bytes message) key.point.neg)).Represents
        (s • B - challenge r key.bytes message • A) := by
  have horder : order < 2 ^ 256 := by decide
  have hk := challenge_lt r key.bytes message
  rw [sub_eq_add_neg, ← neg_nsmul]
  exact (hB.multiple (hs.trans horder)).add (hA.neg.multiple (hk.trans horder))

theorem verify_eq_true_iff {message : Bytes} : key.verify message signature = true ↔
    signature.length = 64 ∧ Bytes.ofLittleEndian (signature.drop 32) < order ∧
      ((Point.multiple (Bytes.ofLittleEndian (signature.drop 32)) Point.base).add
        (Point.multiple (challenge (signature.take 32) key.bytes message) key.point.neg)).compress =
          signature.take 32 := by
  rw [verify]
  split
  · next hlength =>
    dsimp only
    split
    · next hs => simp [hlength, hs]
    · next hs => simp [hs]
  · next hlength => simp [hlength]

/-! ## Signatures of the neutral element -/

/-- The neutral element as a key. -/
def neutral : VerifyingKey := ⟨Bytes.littleEndian 32 1, .identity⟩

theorem ofBytes?_neutral : ofBytes? (Bytes.littleEndian 32 1) = some neutral := by
  have hp : Point.decompress? (Bytes.littleEndian 32 1) = some .identity := by decide +kernel
  rw [ofBytes?, hp]
  rfl

/-- **One signature of the neutral element is valid for every message.** -/
theorem verify_neutral (message : Bytes) :
    neutral.verify message (Bytes.littleEndian 64 1) = true := by
  obtain ⟨B, hB⟩ := Point.exists_represents_base
  have hlength : (Bytes.littleEndian 64 1).length = 64 := by decide
  have hr : (Bytes.littleEndian 64 1).take 32 = Point.identity.compress := by decide +kernel
  have hs : Bytes.ofLittleEndian ((Bytes.littleEndian 64 1).drop 32) = 0 := by decide
  have hneutral : neutral.point.Represents 0 := Point.represents_identity
  rw [verify_eq_true_iff, hr, hs]
  refine ⟨hlength, prime_order.pos, ?_⟩
  rw [Point.compress_eq_iff (represents_expected hneutral hB prime_order.pos _ _)
    Point.represents_identity, zero_nsmul, nsmul_zero, sub_zero]

end VerifyingKey

end Ed25519

/-- The neutral element in the form in which an account holds a key. -/
def EncodedPublicKey.neutral : EncodedPublicKey := ⟨.ed25519, Bytes.littleEndian 32 1⟩

theorem EncodedPublicKey.decode_neutral : neutral.decode = .ok (.ed25519 .neutral) := by
  have hlength : (Bytes.littleEndian 32 1).length = 32 := by decide
  rw [neutral, decode, PublicKey.ofEd25519Bytes, hlength, Ed25519.VerifyingKey.ofBytes?_neutral]
  rfl

/-- The signature of the neutral element in the name of an account. -/
def Signature.neutral (signer : Identifier) : Signature :=
  ⟨signer, .ed25519, Bytes.littleEndian 64 1⟩

/-- The neutral element signs every entity that has an identifier. -/
theorem PublicKey.verifyEntity_neutral {α : Type} [Entity α] {h : Hasher} {x : α} {id : Identifier}
    (hx : h.entityId x = .ok id) (signer : Identifier) :
    (PublicKey.ed25519 .neutral).verifyEntity h x (.neutral signer) = true := by
  have halg : (Signature.neutral signer).algorithm = (PublicKey.ed25519 .neutral).algorithm := rfl
  rw [verifyEntity, if_pos halg, hx]
  exact Ed25519.VerifyingKey.verify_neutral (signedMessage id signer)

end StakeLedger
