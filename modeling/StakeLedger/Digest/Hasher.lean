import StakeLedger.Digest.Blake3
import StakeLedger.Digest.Sha3
import StakeLedger.Identifier
import StakeLedger.Text.Utf8

/-!
# Digests

A `Hasher` is a hash function with 256 bits of output and the name of its algorithm. Whatever
is built on digests takes a hasher and does not look inside it.

* `Hasher.digest` is the digest of a payload under a tag, `tag ":" payload`.
* `Hasher.digestPair` is the digest of an inner node of a tree, the bytes of its two children.
-/

namespace StakeLedger

/-- A hash function whose digests are identifiers. -/
structure Hasher where
  /-- The name of the algorithm. -/
  algorithm : String
  /-- The digest of a byte string. -/
  digestBytes : Bytes → Identifier

namespace Hasher

/-- The hash function BLAKE3, the default. -/
def blake3 : Hasher := ⟨"blake3", fun bytes => ⟨Blake3.hash bytes, Blake3.length_hash bytes⟩⟩

/-- The hash function SHA3-256. -/
def sha3 : Hasher := ⟨"sha3-256", fun bytes => ⟨Sha3.hash bytes, Sha3.length_hash bytes⟩⟩

/-- What is digested for a payload under a tag. -/
def tagged (tag : String) (payload : Bytes) : Bytes :=
  Utf8.ofString tag ++ 0x3A :: payload

/-- The digest of a payload under a tag. -/
def digest (h : Hasher) (tag : String) (payload : Bytes) : Identifier :=
  h.digestBytes (tagged tag payload)

/-- The digest of an inner node of a tree. -/
def digestPair (h : Hasher) (left right : Identifier) : Identifier :=
  h.digestBytes (left.bytes ++ right.bytes)

end Hasher

end StakeLedger
