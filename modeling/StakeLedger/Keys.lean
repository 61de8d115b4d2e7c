import StakeLedger.Ed25519
import StakeLedger.Entity
import StakeLedger.Signature

/-!
# Keys

Signing and verifying on behalf of an account. What is signed is the digest of an entity
followed by the identifier of the signer, so that a signature names both.

* `EncodedPublicKey.decode` turns the key that an account holds into one that verifies.
* `PublicKey.verifyEntity` checks a signature of an entity, `PrivateKey.signEntity` makes one.
-/

namespace StakeLedger

/-- What a signer signs. -/
def signedMessage (digest signer : Identifier) : Bytes :=
  digest.bytes ++ signer.bytes

/-- A public key that can verify. -/
inductive PublicKey
  /-- A key of the algorithm Ed25519. -/
  | ed25519 (key : Ed25519.VerifyingKey)

namespace PublicKey

/-- The algorithm of a key. -/
def algorithm : PublicKey → SignatureAlgorithm
  | ed25519 _ => .ed25519

/-- The form in which an account holds a key: the bytes it was read from. -/
def encode : PublicKey → EncodedPublicKey
  | ed25519 key => ⟨.ed25519, key.bytes⟩

/-- The Ed25519 key of 32 bytes. -/
def ofEd25519Bytes (bytes : Bytes) : Except LedgerError PublicKey :=
  if bytes.length ≠ 32 then .error (.invalidSize 32 bytes.length)
  else
    match Ed25519.VerifyingKey.ofBytes? bytes with
    | some key => .ok (ed25519 key)
    | none => .error (.invalidArgument .malformedKey)

/-- Whether a signature is one of a digest, by the signer that it names. -/
def verifyDigest (key : PublicKey) (digest : Identifier) (signature : Signature) : Bool :=
  match key, signature.algorithm with
  | ed25519 key, .ed25519 => key.verify (signedMessage digest signature.signer) signature.bytes

/-- Whether a signature is one of an entity. An entity without identifier has none. -/
def verifyEntity {α : Type} [Entity α] (key : PublicKey) (h : Hasher) (entity : α)
    (signature : Signature) : Bool :=
  if signature.algorithm = key.algorithm then
    match h.entityId entity with
    | .ok digest => key.verifyDigest digest signature
    | .error _ => false
  else false

end PublicKey

/-- The key that an account holds. -/
def EncodedPublicKey.decode (encoded : EncodedPublicKey) : Except LedgerError PublicKey :=
  match encoded.algorithm with
  | .ed25519 => PublicKey.ofEd25519Bytes encoded.bytes

/-- A private key and the account it signs for. -/
structure PrivateKey where
  owner : Identifier
  key : Ed25519.SigningKey

namespace PrivateKey

/-- The key of an account that a seed of 32 bytes determines. -/
def ofSeed (owner : Identifier) (seed : Bytes) : PrivateKey :=
  ⟨owner, .ofSeed seed⟩

/-- The public key in the form in which an account holds it. -/
def publicKey (k : PrivateKey) : EncodedPublicKey :=
  ⟨.ed25519, k.key.publicBytes⟩

/-- The owner's signature of a digest. -/
def signDigest (k : PrivateKey) (digest : Identifier) : Signature :=
  ⟨k.owner, .ed25519, k.key.sign (signedMessage digest k.owner)⟩

/-- The owner's signature of an entity. -/
def signEntity {α : Type} [Entity α] (k : PrivateKey) (h : Hasher) (entity : α) :
    Except LedgerError Signature :=
  (h.entityId entity).map k.signDigest

end PrivateKey

end StakeLedger
