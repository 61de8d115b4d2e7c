import StakeLedger.Json.Form
import StakeLedger.Codec.Basic

/-!
# Signatures and public keys as data

What an account or a transaction carries: bytes, the algorithm they belong to and, for a
signature, the account that signed. Whether the bytes are a key or a valid signature is for
the algorithm to say.
-/

namespace StakeLedger

/-- The signature algorithms. -/
inductive SignatureAlgorithm
  /-- The Edwards-curve algorithm over Curve25519. -/
  | ed25519
  deriving DecidableEq

namespace SignatureAlgorithm

/-- The name of an algorithm in messages and reports. -/
def name : SignatureAlgorithm → String
  | ed25519 => "ed25519"

/-- The number of an algorithm among the algorithms. -/
def index : SignatureAlgorithm → Fin 1
  | ed25519 => 0

/-- The algorithm of a number. -/
def ofIndex (_ : Fin 1) : SignatureAlgorithm := ed25519

/-- The names of the algorithms in JSON, in order. -/
def jsonNames : List String := ["Ed25519"]

instance : Codec SignatureAlgorithm := Codec.via index ofIndex

instance : Codec.Robust SignatureAlgorithm := .via _ _

instance : JsonForm SignatureAlgorithm where
  toJson
    | ed25519 => .ofString "Ed25519"
  ofJson? j := (Json.alternative? jsonNames j).map fun _ => ed25519

end SignatureAlgorithm

/-- A public key in the form in which an account holds it. -/
structure EncodedPublicKey where
  algorithm : SignatureAlgorithm
  bytes : Bytes
  deriving DecidableEq

namespace EncodedPublicKey

instance : Codec EncodedPublicKey :=
  Codec.via (fun k => (k.algorithm, k.bytes)) fun (algorithm, bytes) => ⟨algorithm, bytes⟩

instance : Codec.Robust EncodedPublicKey :=
  .via (fun k : EncodedPublicKey => (k.algorithm, k.bytes)) fun p => ⟨p.1, p.2⟩

/-- The fields in order. -/
def fieldNames : List String := ["algorithm", "bytes"]

instance : JsonForm EncodedPublicKey where
  toJson k := .ofMembers [("algorithm", toJson k.algorithm), ("bytes", toJson k.bytes)]
  ofJson? j := do
    let [algorithm, bytes] ← Json.fields? false fieldNames j | none
    return ⟨← Json.required? algorithm, ← Json.required? bytes⟩

end EncodedPublicKey

/-- The signature of an account. -/
structure Signature where
  /-- The account that signed, to which the signature is bound. -/
  signer : Identifier
  algorithm : SignatureAlgorithm
  bytes : Bytes
  deriving DecidableEq

namespace Signature

instance : Codec Signature :=
  Codec.via (fun s => (s.signer, s.algorithm, s.bytes)) fun (signer, algorithm, bytes) =>
    ⟨signer, algorithm, bytes⟩

instance : Codec.Robust Signature :=
  .via (fun s : Signature => (s.signer, s.algorithm, s.bytes)) fun p => ⟨p.1, p.2.1, p.2.2⟩

/-- The fields in order. -/
def fieldNames : List String := ["signer", "algorithm", "bytes"]

instance : JsonForm Signature where
  toJson s :=
    .ofMembers [("signer", toJson s.signer), ("algorithm", toJson s.algorithm), ("bytes", toJson s.bytes)]
  ofJson? j := do
    let [signer, algorithm, bytes] ← Json.fields? false fieldNames j | none
    return ⟨← Json.required? signer, ← Json.required? algorithm, ← Json.required? bytes⟩

end Signature

end StakeLedger
