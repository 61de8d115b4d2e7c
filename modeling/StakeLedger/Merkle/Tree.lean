import StakeLedger.Merkle.Proof
import StakeLedger.SortedBy

/-!
# Merkle trees

A store of entities under their identifiers that proves membership against its root. The
identifiers of the entities, in ascending order, are the leaves. Each level pairs the nodes
of the one below it, an odd last node with itself, until a single node is left, the root. The
root of a single leaf is that leaf, and the root of the empty tree is the identifier zero.

* `MerkleTree.put` and `MerkleTree.putAll` add entities, `MerkleTree.get` and
  `MerkleTree.getProof` hand out proofs.
* `SharedMerkleTree` is a tree that many read while one writes: what was published stays as
  it is, and a write that fails publishes nothing.
-/

namespace StakeLedger

namespace Merkle

/-- The level above a level. -/
def parents (h : Hasher) : List Identifier → List Identifier
  | [] => []
  | [last] => [h.digestPair last last]
  | left :: right :: rest => h.digestPair left right :: parents h rest

theorem length_parents (h : Hasher) (level : List Identifier) :
    (parents h level).length = (level.length + 1) / 2 := by
  fun_induction parents h level with
  | case1 => rfl
  | case2 last => simp
  | case3 left right rest ih => simp only [List.length_cons, ih]; omega

/-- The levels above the given leaves, the leaves first and the root's level last. -/
def levels (h : Hasher) (leaves : List Identifier) : List (List Identifier) :=
  if leaves.length ≤ 1 then [leaves] else leaves :: levels h (parents h leaves)
termination_by leaves.length
decreasing_by rw [length_parents]; omega

/-- The step of a path at the node of the given position. -/
def step (level : List Identifier) (position : Nat) : ProofStep :=
  if position % 2 = 0 then
    ⟨level.getD (position + 1) (level.getD position .zero), .right⟩
  else ⟨level.getD (position - 1) .zero, .left⟩

/-- The path from the node of the given position on the first level up to the last level. -/
def path : List (List Identifier) → Nat → List ProofStep
  | level :: upper :: rest, position => step level position :: path (upper :: rest) (position / 2)
  | _, _ => []

/-- The node on the last level. -/
def top (levels : List (List Identifier)) : Identifier :=
  match levels.getLast? with
  | some (root :: _) => root
  | _ => .zero

end Merkle

/-- A Merkle tree over entities of one kind. -/
structure MerkleTree (α : Type) where
  hasher : Hasher
  /-- The entities with their identifiers, in the order of these. -/
  entries : SortedBy (Prod.fst : Identifier × α → Identifier)
  /-- The levels, leaves first. -/
  levels : List (List Identifier)
  /-- The levels are those above the entities' identifiers. -/
  levels_eq : levels = Merkle.levels hasher entries.keys

namespace MerkleTree

variable {α : Type}

/-- The tree with the given entries. -/
def ofEntries (h : Hasher) (entries : SortedBy (Prod.fst : Identifier × α → Identifier)) : MerkleTree α :=
  ⟨h, entries, Merkle.levels h entries.keys, rfl⟩

/-- The tree without entities. -/
def empty (h : Hasher) : MerkleTree α := ofEntries h .empty

/-- The root. -/
def root (t : MerkleTree α) : Identifier := Merkle.top t.levels

/-- The number of entities. -/
def size (t : MerkleTree α) : Nat := t.entries.size

/-- Whether there is no entity. -/
def isEmpty (t : MerkleTree α) : Bool := t.entries.isEmpty

/-- Whether there is an entity of the given identifier. -/
def contains (t : MerkleTree α) (id : Identifier) : Bool := t.entries.contains id

/-- The entities in the order of their identifiers. -/
def entities (t : MerkleTree α) : List α := t.entries.items.map Prod.snd

/-- The proof for the leaf of the given identifier. -/
def getProof (t : MerkleTree α) (id : Identifier) : Except LedgerError MembershipProof :=
  match (t.levels.headD []).idxOf? id with
  | some position => .ok ⟨t.root, Merkle.path t.levels position⟩
  | none => .error (.notFound (.entity id))

/-- The entity of the given identifier with its proof. -/
def get (t : MerkleTree α) (id : Identifier) : Except LedgerError (Authenticated α) :=
  match t.entries.find? id with
  | some entry => (t.getProof id).map (⟨entry.2, ·⟩)
  | none => .error (.notFound (.entity id))

variable [Entity α]

/-- The identifier that an entity gets in a tree. One that refuses to be encoded is
malformed. -/
def identify (h : Hasher) (entity : α) : Except LedgerError Identifier :=
  match h.entityId entity with
  | .error (.codec fault) => .error (.invalidArgument (.malformedEntity fault.message))
  | result => result

/-- The tree with an entity added, and the entity with its proof against the new root. -/
def put (t : MerkleTree α) (entity : α) : Except LedgerError (MerkleTree α × Authenticated α) :=
  match identify t.hasher entity with
  | .error e => .error e
  | .ok id =>
    let next := ofEntries t.hasher (t.entries.insert (id, entity))
    (next.get id).map fun authenticated => (next, authenticated)

/-- The entities of a list with their identifiers, or the error of the first without one. -/
def identifyAll (h : Hasher) : List α → Except LedgerError (List (Identifier × α))
  | [] => .ok []
  | entity :: rest =>
    match identify h entity with
    | .error e => .error e
    | .ok id => (identifyAll h rest).map ((id, entity) :: ·)

/-- The tree with all the entities of a list added, unless one of them is malformed. -/
def putAll (t : MerkleTree α) (entities : List α) : Except LedgerError (MerkleTree α) :=
  (identifyAll t.hasher entities).map fun staged => ofEntries t.hasher (t.entries.insertAll staged)

/-- The tree of the entities of a list. -/
def ofEntities (h : Hasher) (entities : List α) : Except LedgerError (MerkleTree α) :=
  (empty h).putAll entities

theorem hasher_of_putAll {t u : MerkleTree α} {entities : List α} (h : t.putAll entities = .ok u) :
    u.hasher = t.hasher := by
  rw [putAll] at h
  cases hs : identifyAll t.hasher entities with
  | error e => rw [hs] at h; cases h
  | ok staged => rw [hs] at h; cases h; rfl

end MerkleTree

/-- A tree with one writer and any number of readers, who see the last tree published. -/
structure SharedMerkleTree (α : Type) where
  /-- The last tree published. -/
  view : MerkleTree α

namespace SharedMerkleTree

variable {α : Type} [Entity α]

/-- The shared tree after an attempt to add an entity, and what the attempt gives. -/
def put (s : SharedMerkleTree α) (entity : α) : SharedMerkleTree α × Except LedgerError (Authenticated α) :=
  match s.view.put entity with
  | .ok (next, authenticated) => (⟨next⟩, .ok authenticated)
  | .error e => (s, .error e)

end SharedMerkleTree

end StakeLedger
