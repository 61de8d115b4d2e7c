import StakeLedger.Codec.Basic
import StakeLedger.Digest.Hasher

/-!
# Entities

An entity is a value that is identified by its digest: the digest of its identity bytes
under the tag of its kind. The identity bytes of a signed entity leave its signature out, so
that signing does not change what it is called.

* `Hasher.entityId` is the identifier of an entity.
-/

namespace StakeLedger

/-- A kind of values that are identified by their digest. -/
class Entity (α : Type) extends Codec α where
  /-- The name of the kind. -/
  typeTag : String
  /-- The bytes that the identifier is computed from. -/
  identityBytes : α → Except LedgerError Bytes

/-- The identifier of an entity. An entity without identity bytes has none. -/
def Hasher.entityId {α : Type} [Entity α] (h : Hasher) (entity : α) : Except LedgerError Identifier :=
  match Entity.identityBytes entity with
  | .error e => .error e
  | .ok [] => .error (.invalidArgument (.emptyPayload (Entity.typeTag α)))
  | .ok payload => .ok (h.digest (Entity.typeTag α) payload)

end StakeLedger
