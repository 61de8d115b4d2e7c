import StakeLedger.Entity
import StakeLedger.Json.Form

/-!
# Membership proofs

A membership proof claims that a leaf belongs to the tree with a given root. Its path lists
the siblings from the leaf up to the root. To check it takes the leaf, the path and a hasher,
and no tree.

* `MembershipProof.computeRoot` folds the path over a leaf.
* `Authenticated.verify` accepts an entity whose identifier folds to the root that the proof
  states; `Authenticated.verifyAgainst` also compares that root with an expected one.
-/

namespace StakeLedger

/-- Where a sibling stands relative to the node on the path. -/
inductive Side
  | left
  | right
  deriving DecidableEq

namespace Side

/-- The number of a side. -/
def index : Side → Fin 2
  | left => 0
  | right => 1

/-- The side of a number. -/
def ofIndex (i : Fin 2) : Side :=
  if i = 0 then left else right

/-- The names of the sides in JSON, in order. -/
def jsonNames : List String := ["Left", "Right"]

instance : Codec Side := Codec.via index ofIndex

instance : JsonForm Side where
  toJson
    | left => .ofString "Left"
    | right => .ofString "Right"
  ofJson? j := (Json.alternative? jsonNames j).map fun i => if i = 0 then left else right

end Side

/-- One step of a path: the sibling of the node on the path. -/
structure ProofStep where
  sibling : Identifier
  side : Side
  deriving DecidableEq

namespace ProofStep

instance : Codec ProofStep :=
  Codec.via (fun s => (s.sibling, s.side)) fun (sibling, side) => ⟨sibling, side⟩

/-- The fields in order. -/
def fieldNames : List String := ["sibling", "side"]

instance : JsonForm ProofStep where
  toJson s := .ofMembers [("sibling", toJson s.sibling), ("side", toJson s.side)]
  ofJson? j := do
    let [sibling, side] ← Json.fields? false fieldNames j | none
    return ⟨← Json.required? sibling, ← Json.required? side⟩

/-- The parent of a node and its sibling. -/
def apply (h : Hasher) (node : Identifier) (step : ProofStep) : Identifier :=
  match step.side with
  | .right => h.digestPair node step.sibling
  | .left => h.digestPair step.sibling node

end ProofStep

/-- A claim that a leaf belongs to the tree with the root `root`. -/
structure MembershipProof where
  root : Identifier
  /-- The siblings from the leaf upwards. -/
  path : List ProofStep
  deriving DecidableEq

namespace MembershipProof

/-- The longest path that a tree of at most 2^64 leaves can have. -/
def maxDepth : Nat := 64

instance : Codec MembershipProof :=
  Codec.via (fun p => (p.root, p.path)) fun (root, path) => ⟨root, path⟩

/-- The fields in order. -/
def fieldNames : List String := ["root", "path"]

instance : JsonForm MembershipProof where
  toJson p := .ofMembers [("root", toJson p.root), ("path", toJson p.path)]
  ofJson? j := do
    let [root, path] ← Json.fields? false fieldNames j | none
    return ⟨← Json.required? root, ← Json.required? path⟩

/-- The root that a path leads to from a leaf. -/
def computeRoot (p : MembershipProof) (h : Hasher) (leaf : Identifier) : Identifier :=
  p.path.foldl (ProofStep.apply h) leaf

end MembershipProof

/-- An entity with a proof of its membership. -/
structure Authenticated (α : Type) where
  entity : α
  proof : MembershipProof
  deriving DecidableEq

namespace Authenticated

variable {α : Type}

instance [Codec α] : Codec (Authenticated α) :=
  Codec.via (fun a => (a.entity, a.proof)) fun (entity, proof) => ⟨entity, proof⟩

/-- The fields in order. -/
def fieldNames : List String := ["entity", "proof"]

instance [JsonForm α] : JsonForm (Authenticated α) where
  toJson a := .ofMembers [("entity", toJson a.entity), ("proof", toJson a.proof)]
  ofJson? j := do
    let [entity, proof] ← Json.fields? false fieldNames j | none
    return ⟨← Json.required? entity, ← Json.required? proof⟩

/-- Whether the entity's identifier leads along the path to the root that the proof states. -/
def verify [Entity α] (h : Hasher) (a : Authenticated α) : Bool :=
  if MembershipProof.maxDepth < a.proof.path.length then false
  else
    match h.entityId a.entity with
    | .ok leaf => a.proof.computeRoot h leaf = a.proof.root
    | .error _ => false

/-- Whether the proof holds and states the expected root. -/
def verifyAgainst [Entity α] (h : Hasher) (a : Authenticated α) (expectedRoot : Identifier) : Bool :=
  a.proof.root = expectedRoot && a.verify h

end Authenticated

end StakeLedger
