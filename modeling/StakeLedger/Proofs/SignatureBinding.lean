import StakeLedger.Proofs.CurveOrder
import StakeLedger.Proofs.NeutralKey
import StakeLedger.Proofs.Payment

/-!
# What a signature is bound to

A signature that is valid for one digest and signer is valid for another pair exactly if a number,
the challenge, multiplies the key's point to the same point. The challenge is the hash of what is
signed, and of the key and the signature's first half. For most keys this means that the hash
collides; but a key may be a point of small order, for which the challenge counts modulo eight only,
and for the neutral element it does not count at all.

* `VerifyingKey.IsWeak` are the keys of small order. Nothing refuses them.
* `VerifyingKey.verify_iff_of_verify` compares two messages under one signature.
* `PublicKey.verifyDigest_iff_of_verifyDigest` is the main statement, and
  `PublicKey.not_bound_of_verifyDigest` says that the neutral element binds nothing.
-/

namespace StakeLedger

namespace Ed25519

namespace VerifyingKey

/-- Whether eight times the point of a key is the neutral element. -/
def IsWeak (key : VerifyingKey) : Prop :=
  (Point.multiple 8 key.point).compress = Point.identity.compress

instance (key : VerifyingKey) : Decidable key.IsWeak :=
  inferInstanceAs (Decidable (_ = _))

variable {key : VerifyingKey} {A : curve.Point} {signature : Bytes}

theorem exists_represents {bytes : Bytes} (h : ofBytes? bytes = some key) :
    ∃ A, key.point.Represents A := by
  obtain ⟨p, hp, rfl⟩ := Option.map_eq_some_iff.mp h
  exact Point.exists_represents_of_decompress? hp

theorem isWeak_iff (hA : key.point.Represents A) : key.IsWeak ↔ 8 • A = 0 :=
  (Point.nsmul_eq_zero_iff hA (by decide)).symm

/-- **A signature of one message is one of another exactly if the challenges give the same multiple
of the key's point.** -/
theorem verify_iff_of_verify (hA : key.point.Represents A) {message : Bytes}
    (h : key.verify message signature = true) (message' : Bytes) :
    key.verify message' signature = true ↔
      challenge (signature.take 32) key.bytes message' • A =
        challenge (signature.take 32) key.bytes message • A := by
  obtain ⟨B, hB⟩ := Point.exists_represents_base
  obtain ⟨hlength, hs, hexpected⟩ := verify_eq_true_iff.mp h
  have hiff := Point.compress_eq_iff (represents_expected hA hB hs (signature.take 32) message')
    (represents_expected hA hB hs (signature.take 32) message)
  rw [hexpected] at hiff
  simp only [verify_eq_true_iff, hlength, hs, true_and, hiff, sub_right_inj]

/-- **A key that is not weak binds a signature to its challenge.** -/
theorem verify_iff_of_not_isWeak (hA : key.point.Represents A) (hweak : ¬ key.IsWeak)
    {message : Bytes} (h : key.verify message signature = true) (message' : Bytes) :
    key.verify message' signature = true ↔
      challenge (signature.take 32) key.bytes message' =
        challenge (signature.take 32) key.bytes message := by
  rw [verify_iff_of_verify hA h]
  refine ⟨fun hsame => ?_, fun hsame => by rw [hsame]⟩
  by_contra hne
  refine hweak ((isWeak_iff hA).mpr ?_)
  exact Point.eight_nsmul_eq_zero (challenge_lt _ _ _) (challenge_lt _ _ _) hne hsame

/-- **For a weak key the challenge counts modulo eight only.** -/
theorem verify_of_isWeak (hA : key.point.Represents A) (hweak : key.IsWeak) {message : Bytes}
    (h : key.verify message signature = true) {message' : Bytes}
    (hmod : challenge (signature.take 32) key.bytes message' % 8 =
      challenge (signature.take 32) key.bytes message % 8) :
    key.verify message' signature = true := by
  rw [verify_iff_of_verify hA h, nsmul_eq_nsmul_iff_modEq]
  exact Nat.ModEq.of_dvd (addOrderOf_dvd_of_nsmul_eq_zero ((isWeak_iff hA).mp hweak)) hmod

/-! ## The base point as a key -/

/-- The base point as a key. -/
def base : VerifyingKey := ⟨Point.base.compress, .base⟩

theorem ofBytes?_base : ofBytes? Point.base.compress = some base := by
  have hp : Point.decompress? Point.base.compress = some .base := by decide +kernel
  rw [ofBytes?, hp]
  rfl

theorem not_isWeak_base : ¬ base.IsWeak := by
  decide +kernel

/-- The signature of the base point that starts with the neutral element. -/
def signatureOfBase (message : Bytes) : Bytes :=
  Point.identity.compress ++
    Bytes.littleEndian 32 (challenge Point.identity.compress base.bytes message)

theorem verify_base (message : Bytes) : base.verify message (signatureOfBase message) = true := by
  obtain ⟨B, hB⟩ := Point.exists_represents_base
  have hk := challenge_lt Point.identity.compress base.bytes message
  have hlength : Point.identity.compress.length = 32 := by decide +kernel
  have hr : (signatureOfBase message).take 32 = Point.identity.compress := List.take_left' hlength
  have hs : Bytes.ofLittleEndian ((signatureOfBase message).drop 32) =
      challenge Point.identity.compress base.bytes message := by
    rw [signatureOfBase, List.drop_left' hlength]
    exact Bytes.ofLittleEndian_littleEndian (hk.trans (by decide))
  rw [verify_eq_true_iff, hr, hs]
  refine ⟨?_, hk, ?_⟩
  · rw [signatureOfBase, List.length_append, hlength, Bytes.length_littleEndian]
  · rw [Point.compress_eq_iff (represents_expected hB hB hk _ _) Point.represents_identity]
    exact sub_self _

end VerifyingKey

end Ed25519

open Ed25519 (VerifyingKey)

/-- The base point in the form in which an account holds a key. -/
def EncodedPublicKey.base : EncodedPublicKey := ⟨.ed25519, Ed25519.Point.base.compress⟩

theorem EncodedPublicKey.decode_base : base.decode = .ok (.ed25519 .base) := by
  have hlength : Ed25519.Point.base.compress.length = 32 := by decide +kernel
  rw [base, decode, PublicKey.ofEd25519Bytes, hlength, VerifyingKey.ofBytes?_base]
  rfl

/-! ## Digests and signers -/

theorem signedMessage_inj {digest digest' signer signer' : Identifier} :
    signedMessage digest' signer' = signedMessage digest signer ↔
      digest' = digest ∧ signer' = signer := by
  refine ⟨fun h => ?_, fun ⟨hdigest, hsigner⟩ => by rw [hdigest, hsigner]⟩
  obtain ⟨hdigest, hsigner⟩ := List.append_inj h (digest'.length_eq.trans digest.length_eq.symm)
  exact ⟨Identifier.ext_bytes hdigest, Identifier.ext_bytes hsigner⟩

namespace PublicKey

/-- Whether a key is of small order. -/
def IsWeak : PublicKey → Prop
  | ed25519 key => key.IsWeak

/-- What is hashed to check a signature of a digest. -/
def challengeInput : PublicKey → Identifier → Signature → Bytes
  | ed25519 key, digest, signature =>
    signature.bytes.take 32 ++ key.bytes ++ signedMessage digest signature.signer

/-- The number that is compared: the hash, reduced modulo the order of the base point. -/
def challenge (key : PublicKey) (digest : Identifier) (signature : Signature) : Nat :=
  Bytes.ofLittleEndian (Sha512.hash (key.challengeInput digest signature)) % Ed25519.order

/-- Whether two different inputs of the hash give the same challenge. -/
def Collides (key : PublicKey) (digest : Identifier) (signature : Signature) (digest' : Identifier)
    (signature' : Signature) : Prop :=
  key.challengeInput digest signature ≠ key.challengeInput digest' signature' ∧
    key.challenge digest signature = key.challenge digest' signature'

variable {key : PublicKey} {encoded : EncodedPublicKey} {digest digest' : Identifier}
  {signature signature' : Signature}

theorem challengeInput_inj (hbytes : signature'.bytes = signature.bytes) :
    key.challengeInput digest' signature' = key.challengeInput digest signature ↔
      digest' = digest ∧ signature'.signer = signature.signer := by
  cases key with
  | ed25519 key =>
    rw [challengeInput, challengeInput, hbytes, List.append_cancel_left_eq, signedMessage_inj]

theorem exists_of_decode (hkey : encoded.decode = .ok key) :
    ∃ verifying A, key = ed25519 verifying ∧ verifying.point.Represents A := by
  rw [EncodedPublicKey.decode, ofEd25519Bytes] at hkey
  split at hkey
  split at hkey
  · cases hkey
  · split at hkey
    · next verifying hread =>
      obtain rfl := Except.ok.inj hkey
      obtain ⟨A, hA⟩ := VerifyingKey.exists_represents hread
      exact ⟨verifying, A, rfl, hA⟩
    · cases hkey

/-- **What a signature is bound to.** Let a signature be valid for a digest under a key that an
account may hold. If the key is not weak, then the signature's bytes are valid for another digest
and signer exactly if these are the same, or if the hash, reduced modulo the order of the base
point, collides. If the key is weak, then they are valid at least for every digest and signer whose
challenge is the same modulo eight. -/
theorem verifyDigest_iff_of_verifyDigest (hkey : encoded.decode = .ok key)
    (hvalid : key.verifyDigest digest signature = true) (digest' : Identifier)
    (signature' : Signature) (hbytes : signature'.bytes = signature.bytes) :
    (¬ key.IsWeak →
      (key.verifyDigest digest' signature' = true ↔
        (digest' = digest ∧ signature'.signer = signature.signer) ∨
          key.Collides digest' signature' digest signature)) ∧
    (key.IsWeak → key.challenge digest' signature' % 8 = key.challenge digest signature % 8 →
      key.verifyDigest digest' signature' = true) := by
  obtain ⟨verifying, A, rfl, hA⟩ := exists_of_decode hkey
  have hverify (digest : Identifier) (signature : Signature) :
      (ed25519 verifying).verifyDigest digest signature =
        verifying.verify (signedMessage digest signature.signer) signature.bytes := rfl
  have hchallenge (digest : Identifier) (signature : Signature) :
      (ed25519 verifying).challenge digest signature = Ed25519.challenge (signature.bytes.take 32)
        verifying.bytes (signedMessage digest signature.signer) := rfl
  rw [hverify] at hvalid
  rw [hverify, hchallenge, hchallenge, hbytes]
  refine ⟨fun hweak => ?_, fun hweak hmod => VerifyingKey.verify_of_isWeak hA hweak hvalid hmod⟩
  have hiff := VerifyingKey.verify_iff_of_not_isWeak hA hweak hvalid
    (signedMessage digest' signature'.signer)
  rw [hiff, Collides, hchallenge, hchallenge, hbytes, ne_eq, challengeInput_inj hbytes]
  refine ⟨fun hsame => ?_, ?_⟩
  · by_cases hpair : digest' = digest ∧ signature'.signer = signature.signer
    · exact .inl hpair
    · exact .inr ⟨hpair, hsame⟩
  · rintro (⟨hdigest, hsigner⟩ | ⟨-, hsame⟩)
    · rw [hdigest, hsigner]
    · exact hsame

/-- The base point is a key that is not weak. A signature of its payer is one of its payee only if
the hash collides. -/
theorem verifyDigest_iff_of_verifyDigest_base :
    let key := ed25519 .base
    let bytes := VerifyingKey.signatureOfBase (signedMessage Payment.origin Payment.payer)
    EncodedPublicKey.base.decode = .ok key ∧ ¬ key.IsWeak ∧
      key.verifyDigest Payment.origin ⟨Payment.payer, .ed25519, bytes⟩ = true ∧
      (key.verifyDigest Payment.origin ⟨Payment.payee, .ed25519, bytes⟩ = true ↔
        key.Collides Payment.origin ⟨Payment.payee, .ed25519, bytes⟩
          Payment.origin ⟨Payment.payer, .ed25519, bytes⟩) := by
  intro key bytes
  have hvalid : key.verifyDigest Payment.origin ⟨Payment.payer, .ed25519, bytes⟩ = true :=
    VerifyingKey.verify_base (signedMessage Payment.origin Payment.payer)
  have hweak : ¬ key.IsWeak := VerifyingKey.not_isWeak_base
  have hne : Payment.payee ≠ Payment.payer := by decide +kernel
  have hiff := (verifyDigest_iff_of_verifyDigest EncodedPublicKey.decode_base hvalid Payment.origin
    ⟨Payment.payee, .ed25519, bytes⟩ rfl).1 hweak
  refine ⟨EncodedPublicKey.decode_base, hweak, hvalid, hiff.trans ?_⟩
  exact or_iff_right fun hpair => hne hpair.2

/-- **The neutral element binds nothing:** it is a key, and one signature of it is valid for two
digests and signers. -/
theorem not_bound_of_verifyDigest :
    ¬ ∀ (encoded : EncodedPublicKey) (key : PublicKey) (digest digest' : Identifier)
      (signature signature' : Signature), encoded.decode = .ok key →
        signature'.bytes = signature.bytes → key.verifyDigest digest signature = true →
          key.verifyDigest digest' signature' = true →
            digest' = digest ∧ signature'.signer = signature.signer := by
  intro hbound
  have hverify (digest signer : Identifier) :
      (ed25519 .neutral).verifyDigest digest (.neutral signer) = true :=
    VerifyingKey.verify_neutral (signedMessage digest signer)
  obtain ⟨hdigest, -⟩ := hbound .neutral (ed25519 .neutral) Payment.payer Payment.payee
    (.neutral Payment.payer) (.neutral Payment.payee) EncodedPublicKey.decode_neutral rfl
    (hverify _ _) (hverify _ _)
  exact absurd hdigest (by decide +kernel)

end PublicKey

end StakeLedger
