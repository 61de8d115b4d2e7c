import StakeLedger.Account
import StakeLedger.Merkle.Tree

/-!
# Snapshots

A snapshot is the state of all accounts as of one finalized block, with a Merkle tree over
them and the leaf of each account in it. It never changes. A `SnapshotBuilder` collects the
accounts of a snapshot to be.

* `SnapshotBuilder.add` adds an account and `SnapshotBuilder.update` replaces one;
  `SnapshotBuilder.build` makes the snapshot.
* `AccountSnapshot.authenticated` is an account with its proof against the snapshot's root.
* `AccountSnapshot.sameAs` compares two snapshots by block, height and root.
-/

namespace StakeLedger

/-- Accounts in the order of their identifiers. -/
abbrev Accounts := SortedBy Account.identifier

/-- The accounts of a snapshot that is not final yet. -/
structure SnapshotBuilder where
  blockId : Identifier
  height : UInt64
  accounts : Accounts := .empty

/-- Leaves of accounts under the identifiers of the accounts. -/
abbrev Leaves := SortedBy (Prod.fst : Identifier × Identifier → Identifier)

/-- The leaves with those of the accounts of a list added, one after the other. -/
def Leaves.enterAll (h : Hasher) (leaves : Leaves) : List Account → Except LedgerError Leaves
  | [] => .ok leaves
  | account :: rest =>
    match h.entityId account with
    | .error e => .error e
    | .ok leaf => enterAll h (leaves.insert (account.identifier, leaf)) rest

/-- The accounts as of one finalized block. -/
structure AccountSnapshot where
  blockId : Identifier
  height : UInt64
  accounts : Accounts
  /-- The leaves of the accounts in the tree. -/
  leaves : Leaves
  /-- The tree over the accounts. -/
  tree : MerkleTree Account
  /-- The leaves are those of the accounts. -/
  leaves_eq : Leaves.enterAll tree.hasher .empty accounts.items = .ok leaves
  /-- The tree holds exactly the accounts. -/
  tree_eq : MerkleTree.ofEntities tree.hasher accounts.items = .ok tree

namespace SnapshotBuilder

/-- The account of the given identifier. -/
def account? (b : SnapshotBuilder) (id : Identifier) : Option Account :=
  b.accounts.find? id

/-- The number of accounts. -/
def size (b : SnapshotBuilder) : Nat := b.accounts.size

/-- Whether there is no account. -/
def isEmpty (b : SnapshotBuilder) : Bool := b.accounts.isEmpty

/-- The builder with an account added, unless there is one with its identifier. -/
def add (b : SnapshotBuilder) (account : Account) : Except LedgerError SnapshotBuilder :=
  if b.accounts.contains account.identifier then
    .error (.invalidArgument (.duplicateAccount account.identifier))
  else .ok { b with accounts := b.accounts.insert account }

/-- The builder with all the accounts of a list added, one after the other. -/
def addAll (b : SnapshotBuilder) : List Account → Except LedgerError SnapshotBuilder
  | [] => .ok b
  | account :: rest =>
    match b.add account with
    | .error e => .error e
    | .ok b => b.addAll rest

/-- The builder with an account replaced, if there is one with its identifier. -/
def update (b : SnapshotBuilder) (account : Account) : Except LedgerError SnapshotBuilder :=
  if b.accounts.contains account.identifier then
    .ok { b with accounts := b.accounts.insert account }
  else .error (.notFound (.account account.identifier))

/-- The snapshot of the collected accounts. -/
def build (b : SnapshotBuilder) (h : Hasher) : Except LedgerError AccountSnapshot :=
  match hl : Leaves.enterAll h .empty b.accounts.items with
  | .error e => .error e
  | .ok leaves =>
    match ht : MerkleTree.ofEntities h b.accounts.items with
    | .error e => .error e
    | .ok tree =>
      .ok ⟨b.blockId, b.height, b.accounts, leaves, tree,
        by rw [MerkleTree.hasher_of_putAll ht]; exact hl,
        by rw [MerkleTree.hasher_of_putAll ht]; exact ht⟩

end SnapshotBuilder

namespace AccountSnapshot

/-- The hash function of the snapshot's tree. -/
def hasher (s : AccountSnapshot) : Hasher := s.tree.hasher

/-- The root of the tree over the accounts. -/
def accountsRoot (s : AccountSnapshot) : Identifier := s.tree.root

/-- The account of the given identifier. -/
def account? (s : AccountSnapshot) (id : Identifier) : Option Account :=
  s.accounts.find? id

/-- The accounts in the order of their identifiers. -/
def all (s : AccountSnapshot) : List Account := s.accounts.items

/-- The number of accounts. -/
def size (s : AccountSnapshot) : Nat := s.accounts.size

/-- The leaf of the account of the given identifier. -/
def leaf (s : AccountSnapshot) (id : Identifier) : Except LedgerError Identifier :=
  match s.leaves.find? id with
  | some entry => .ok entry.2
  | none => .error (.notFound (.account id))

/-- The account of the given identifier with its proof. -/
def authenticated (s : AccountSnapshot) (id : Identifier) : Except LedgerError (Authenticated Account) :=
  match s.leaf id with
  | .ok leaf => s.tree.get leaf
  | .error e => .error e

/-- A builder for a later snapshot that starts with these accounts. -/
def successor (s : AccountSnapshot) (blockId : Identifier) (height : UInt64) : SnapshotBuilder :=
  ⟨blockId, height, s.accounts⟩

/-- Whether two snapshots agree in block, height and root. -/
def sameAs (s t : AccountSnapshot) : Bool :=
  s.blockId = t.blockId && s.height = t.height && s.accountsRoot = t.accountsRoot

end AccountSnapshot

end StakeLedger
