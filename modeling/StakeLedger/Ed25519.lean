import StakeLedger.Digest.Sha512
import StakeLedger.Ed25519.Curve

/-!
# Ed25519

Signatures of 64 bytes: a point `R` and a number `s` below the order of the base point.
A signature of a message under a key `A` is valid if `s·B - k·A` is written as `R`, where `k`
is the digest of `R`, the key's bytes as they were given, and the message.

The key may be any point, also one of small order or one that is not written in its reduced
form; there is no further check and no cofactor.
-/

namespace StakeLedger.Ed25519

/-- A public key: a point, and the bytes that it was read from. -/
structure VerifyingKey where
  bytes : Bytes
  point : Point

/-- The key of 32 bytes, if they are those of a point. -/
def VerifyingKey.ofBytes? (bytes : Bytes) : Option VerifyingKey :=
  (Point.decompress? bytes).map (⟨bytes, ·⟩)

/-- The number that binds a signature to its message. -/
def challenge (r key message : Bytes) : Nat :=
  Bytes.ofLittleEndian (Sha512.hash (r ++ key ++ message)) % order

/-- Whether a byte string is a signature of a message under a key. -/
def VerifyingKey.verify (key : VerifyingKey) (message signature : Bytes) : Bool :=
  if signature.length = 64 then
    let r := signature.take 32
    let s := Bytes.ofLittleEndian (signature.drop 32)
    if s < order then
      let k := challenge r key.bytes message
      let expected := ((Point.multiple s Point.base).add (Point.multiple k key.point.neg)).compress
      expected = r
    else false
  else false

/-- A private key, expanded from its seed. -/
structure SigningKey where
  /-- The factor of the base point that gives the public key. -/
  secret : Nat
  /-- What makes the nonces of this key unpredictable. -/
  nonceSeed : Bytes

namespace SigningKey

/-- A number with its lowest three bits cleared and its highest bit at place 254. -/
def clamp (n : Nat) : Nat :=
  let half := signWeight / 2
  n % half / 8 * 8 + half

/-- The private key of a seed of 32 bytes. -/
def ofSeed (seed : Bytes) : SigningKey :=
  let digest := Sha512.hash seed
  ⟨clamp (Bytes.ofLittleEndian (digest.take 32)), digest.drop 32⟩

/-- The bytes of the public key. -/
def publicBytes (key : SigningKey) : Bytes :=
  (Point.multiple key.secret Point.base).compress

/-- The signature of a message. -/
def sign (key : SigningKey) (message : Bytes) : Bytes :=
  let nonce := Bytes.ofLittleEndian (Sha512.hash (key.nonceSeed ++ message)) % order
  let r := (Point.multiple nonce Point.base).compress
  let k := challenge r key.publicBytes message
  r ++ Bytes.littleEndian 32 ((nonce + k * key.secret) % order)

end SigningKey

end StakeLedger.Ed25519
