import StakeLedger.Entity
import StakeLedger.Json.Form

/-!
# Encoded entities

An entity in its binary form together with the tag of its kind, as entities travel between
nodes.
-/

namespace StakeLedger

/-- An entity in binary form and the tag of its kind. -/
structure EncodedEntity where
  bytes : Bytes
  typeTag : String
  deriving DecidableEq

namespace EncodedEntity

/-- The binary form of an entity under the tag of its kind. -/
def ofEntity {α : Type} [Entity α] (entity : α) : EncodedEntity :=
  ⟨Codec.encode entity, Entity.typeTag α⟩

/-- The entity of the expected kind that has the given binary form. -/
def decode {α : Type} [Codec α] [Codec.Robust α] (encoded : EncodedEntity) (expected : String) :
    Except LedgerError α :=
  if encoded.typeTag ≠ expected then
    .error (.invalidArgument (.tagMismatch expected encoded.typeTag))
  else Codec.read encoded.bytes

instance : Codec EncodedEntity :=
  Codec.via (fun e => (e.bytes, e.typeTag)) fun (bytes, typeTag) => ⟨bytes, typeTag⟩

/-- The fields in order. -/
def fieldNames : List String := ["bytes", "type_tag"]

instance : JsonForm EncodedEntity where
  toJson e := .ofMembers [("bytes", toJson e.bytes), ("type_tag", toJson e.typeTag)]
  ofJson? j := do
    let [bytes, typeTag] ← Json.fields? false fieldNames j | none
    return ⟨← Json.required? bytes, ← Json.required? typeTag⟩

end EncodedEntity

end StakeLedger
