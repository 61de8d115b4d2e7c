import StakeLedger.Block
import StakeLedger.SortedBy

/-!
# The block store

Blocks under their identifiers, and for each height at which there are blocks the
identifiers of these.

* `BlockStore.add` keeps the block that is there already if a block of the same identifier
  is added.
* `BlockStore.all` lists the blocks by height and then by identifier.
-/

namespace StakeLedger

/-- A store of blocks. -/
structure BlockStore where
  hasher : Hasher
  /-- The blocks with their identifiers. -/
  blocks : SortedBy (Prod.fst : Identifier × Block → Identifier)
  /-- The heights with the identifiers of their blocks. -/
  heights : SortedBy (Prod.fst : UInt64 × SortedBy (fun x : Identifier => x) → UInt64)

namespace BlockStore

/-- The store without blocks. -/
def empty (h : Hasher) : BlockStore := ⟨h, .empty, .empty⟩

/-- The number of blocks. -/
def size (s : BlockStore) : Nat := s.blocks.size

/-- Whether there is no block. -/
def isEmpty (s : BlockStore) : Bool := s.blocks.isEmpty

/-- Whether there is a block of the given identifier. -/
def has (s : BlockStore) (id : Identifier) : Bool := s.blocks.contains id

/-- The block of the given identifier. -/
def byId? (s : BlockStore) (id : Identifier) : Option Block := (s.blocks.find? id).map Prod.snd

/-- The identifiers of the blocks at a height. -/
def idsAt (s : BlockStore) (height : UInt64) : SortedBy (fun x : Identifier => x) :=
  match s.heights.find? height with
  | some (_, ids) => ids
  | none => .empty

/-- The store with a block added, and whether there was none of its identifier before. -/
def add (s : BlockStore) (block : Block) : Except LedgerError (BlockStore × Bool) :=
  match s.hasher.entityId block with
  | .error e => .error e
  | .ok id =>
    if s.has id then .ok (s, false)
    else
      .ok ({ s with
        blocks := s.blocks.insert (id, block)
        heights := s.heights.insert (block.height, (s.idsAt block.height).insert id) }, true)

/-- The heights without the identifier of a block that stood at the given height. A height
without blocks does not remain. -/
def forget (s : BlockStore) (height : UInt64) (id : Identifier) :
    SortedBy (Prod.fst : UInt64 × SortedBy (fun x : Identifier => x) → UInt64) :=
  let ids := (s.idsAt height).erase id
  if ids.isEmpty then s.heights.erase height else s.heights.insert (height, ids)

/-- The store without the block of the given identifier, and whether there was one. -/
def remove (s : BlockStore) (id : Identifier) : BlockStore × Bool :=
  match s.byId? id with
  | none => (s, false)
  | some block => ({ s with blocks := s.blocks.erase id, heights := s.forget block.height id }, true)

/-- The blocks at a height in the order of their identifiers. -/
def atHeight (s : BlockStore) (height : UInt64) : List Block :=
  (s.idsAt height).items.filterMap s.byId?

/-- All the blocks by height and then by identifier. -/
def all (s : BlockStore) : List Block :=
  s.heights.items.flatMap fun (_, ids) => ids.items.filterMap s.byId?

end BlockStore

end StakeLedger
