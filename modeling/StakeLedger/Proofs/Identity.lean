import StakeLedger.Block
import StakeLedger.Snapshot

/-!
# The identifiers of accounts, transactions and blocks

The identity bytes of an account, a transaction or a block start with an identifier, so they
are never empty, and each of these entities has an identifier of its own under every hash
function.

* `Hasher.accountId`, `Hasher.transactionId` and `Hasher.blockId` are these identifiers
  (`entityId_account`, `entityId_transaction`, `entityId_block`).
* `SnapshotBuilder.build` therefore never fails: it gives `SnapshotBuilder.sealed`
  (`build_eq`), and the leaves and the tree of a snapshot are `Leaves.ofAccounts` and
  `MerkleTree.ofAccounts`.
-/

namespace StakeLedger

/-! ## Identifiers of entities -/

theorem Codec.encode_identifier_append_ne_nil {β : Type} [Codec β] (x : Identifier) (b : β) :
    Codec.encode (x, b) ≠ [] := by
  intro h
  have hx : x.bytes ++ Codec.encode b = [] := h
  have hlen := x.length_eq
  rw [(List.append_eq_nil_iff.mp hx).1] at hlen
  cases hlen

namespace Hasher

variable (h : Hasher)

theorem entityId_of_identityBytes {α : Type} [Entity α] {x : α} {payload : Bytes}
    (hx : Entity.identityBytes x = .ok payload) (hne : payload ≠ []) :
    h.entityId x = .ok (h.digest (Entity.typeTag α) payload) := by
  obtain ⟨b, rest, rfl⟩ := List.exists_cons_of_ne_nil hne
  simp only [entityId, hx]

/-- The identifier of an account: its leaf in the tree of a snapshot. -/
def accountId (a : Account) : Identifier :=
  h.digest (Entity.typeTag Account) (Codec.encode a)

/-- The identifier of a transaction, signed or not. -/
def transactionId (tx : Transaction) : Identifier :=
  h.digest (Entity.typeTag Transaction) (Codec.encode tx.body)

/-- The identifier of a block, signed or not. -/
def blockId (b : Block) : Identifier :=
  h.digest (Entity.typeTag Block) (Codec.encode b.body)

@[simp]
theorem entityId_account (a : Account) : h.entityId a = .ok (h.accountId a) :=
  h.entityId_of_identityBytes rfl (Codec.encode_identifier_append_ne_nil a.identifier _)

@[simp]
theorem entityId_transaction (tx : Transaction) : h.entityId tx = .ok (h.transactionId tx) :=
  h.entityId_of_identityBytes rfl (Codec.encode_identifier_append_ne_nil tx.referenceBlockId _)

@[simp]
theorem entityId_block (b : Block) : h.entityId b = .ok (h.blockId b) :=
  h.entityId_of_identityBytes rfl (Codec.encode_identifier_append_ne_nil b.previousBlockId _)

end Hasher

/-! ## Building snapshots -/

namespace MerkleTree

theorem identifyAll_accounts (h : Hasher) (accounts : List Account) :
    identifyAll h accounts = .ok (accounts.map fun a => (h.accountId a, a)) := by
  induction accounts with
  | nil => rfl
  | cons a rest ih =>
    have ha : identify h a = .ok (h.accountId a) := by rw [identify, h.entityId_account]
    simp only [identifyAll, ha, ih]
    rfl

/-- The tree over a list of accounts. -/
def ofAccounts (h : Hasher) (accounts : List Account) : MerkleTree Account :=
  ofEntries h (.ofList (accounts.map fun a => (h.accountId a, a)))

theorem ofEntities_accounts (h : Hasher) (accounts : List Account) :
    ofEntities h accounts = .ok (ofAccounts h accounts) := by
  rw [ofEntities, putAll, show (empty h : MerkleTree Account).hasher = h from rfl,
    identifyAll_accounts]
  rfl

end MerkleTree

namespace Leaves

/-- The leaves of the accounts of a list. -/
def ofAccounts (h : Hasher) (accounts : List Account) : Leaves :=
  .ofList (accounts.map fun a => (a.identifier, h.accountId a))

theorem enterAll_eq (h : Hasher) (leaves : Leaves) (accounts : List Account) :
    leaves.enterAll h accounts =
      .ok (leaves.insertAll (accounts.map fun a => (a.identifier, h.accountId a))) := by
  induction accounts generalizing leaves with
  | nil => rfl
  | cons a rest ih =>
    simp only [enterAll, h.entityId_account, ih]
    rfl

end Leaves

namespace SnapshotBuilder

/-- The snapshot of the collected accounts. -/
def sealed (b : SnapshotBuilder) (h : Hasher) : AccountSnapshot :=
  ⟨b.blockId, b.height, b.accounts, .ofAccounts h b.accounts.items,
    .ofAccounts h b.accounts.items, Leaves.enterAll_eq h .empty b.accounts.items,
    MerkleTree.ofEntities_accounts h b.accounts.items⟩

/-- **Building never fails.** -/
theorem build_eq (b : SnapshotBuilder) (h : Hasher) : b.build h = .ok (b.sealed h) := by
  unfold build
  split
  · next e he =>
    rw [Leaves.enterAll_eq] at he
    cases he
  · next leaves hl =>
    rw [Leaves.enterAll_eq] at hl
    cases hl
    split
    · next e he =>
      rw [MerkleTree.ofEntities_accounts] at he
      cases he
    · next tree ht =>
      rw [MerkleTree.ofEntities_accounts] at ht
      cases ht
      rfl

variable (b : SnapshotBuilder) (h : Hasher)

@[simp]
theorem blockId_sealed : (b.sealed h).blockId = b.blockId := rfl

@[simp]
theorem height_sealed : (b.sealed h).height = b.height := rfl

@[simp]
theorem accounts_sealed : (b.sealed h).accounts = b.accounts := rfl

@[simp]
theorem hasher_sealed : (b.sealed h).hasher = h := rfl

@[simp]
theorem account?_sealed (id : Identifier) : (b.sealed h).account? id = b.account? id := rfl

end SnapshotBuilder

namespace AccountSnapshot

theorem leaves_eq_ofAccounts (s : AccountSnapshot) : s.leaves = .ofAccounts s.hasher s.all := by
  have hleaves := s.leaves_eq
  rw [Leaves.enterAll_eq, Except.ok.injEq] at hleaves
  exact hleaves.symm

theorem tree_eq_ofAccounts (s : AccountSnapshot) : s.tree = .ofAccounts s.hasher s.all := by
  have htree := s.tree_eq
  rw [MerkleTree.ofEntities_accounts, Except.ok.injEq] at htree
  exact htree.symm

end AccountSnapshot

end StakeLedger
