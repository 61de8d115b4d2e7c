import StakeLedger.Chain
import StakeLedger.Proofs.Membership

/-!
# The root of the accounts binds them

Two snapshots under one hash function with the same root hold the same accounts, however many
these are, or the hash function breaks on what was digested to build the two trees. Trees of
different sizes overlap in shape, because the odd last node of a level is paired with itself. The
root binds the accounts all the same: the path of each account in its own tree is one that leads
to the root of the other, so soundness of proofs finds it there.

* `AccountSnapshot.digested` is what is digested to build a snapshot.
* `AccountSnapshot.accounts_eq_of_accountsRoot_eq` is the main statement. A snapshot that a chain
  takes for the one it has is that one.
-/

namespace StakeLedger

namespace AccountSnapshot

variable {s t : AccountSnapshot}

/-- What is digested to build a snapshot. -/
def digested (s : AccountSnapshot) : List Bytes :=
  s.accounts.items.map Entity.input ++ Merkle.nodeInputs s.hasher s.tree.entries.keys

theorem built (s : AccountSnapshot) :
    MerkleTree.Built (α := EntityKind.account.Carrier) s.hasher s.tree s.digested :=
  .putAll .empty s.tree_eq

theorem entries_tree (s : AccountSnapshot) :
    s.tree.entries = .ofList (s.accounts.items.map fun a => (s.hasher.accountId a, a)) := by
  rw [tree_eq_ofAccounts]
  rfl

theorem mem_of_mem_entries {e : Identifier × Account} (he : e ∈ s.tree.entries.items) :
    e.2 ∈ s.accounts.items := by
  rw [entries_tree] at he
  rcases SortedBy.mem_of_mem_insertAll he with he | he
  · cases he
  · obtain ⟨a, ha, rfl⟩ := List.mem_map.mp he
    exact ha

theorem mem_keys_tree {a : Account} (ha : a ∈ s.accounts.items) :
    s.hasher.digestBytes (Entity.input a) ∈ s.tree.entries.keys := by
  rw [entries_tree]
  refine SortedBy.mem_keys_insertAll.mpr (.inl ?_)
  rw [List.map_map]
  exact List.mem_map_of_mem ha

/-- An account of a snapshot is one of every other snapshot with its root, or the hash function
breaks. -/
theorem mem_of_accountsRoot_eq (hhasher : s.hasher = t.hasher)
    (hroot : s.accountsRoot = t.accountsRoot) {a : Account} (ha : a ∈ s.accounts.items) :
    a ∈ t.accounts.items ∨ s.hasher.Breaks (s.digested ++ t.digested) := by
  obtain ⟨path, hfold, hpath⟩ := s.built.exists_path (k := .account) (mem_keys_tree ha)
  have ht : MerkleTree.Built (α := EntityKind.account.Carrier) s.hasher t.tree t.digested :=
    hhasher ▸ t.built
  have hinput : Entity.input a ∈ s.digested :=
    List.mem_append_left _ (List.mem_map_of_mem ha)
  rcases ht.exists_mem_of_foldl_eq_root (k := .account) (List.subset_append_right _ _)
    (List.mem_append_left _ hinput) (List.Subset.trans hpath (List.subset_append_left _ _))
    (hfold.trans hroot) with ⟨stored, hmem, heq⟩ | hbreaks
  · have hstored : stored = a :=
      (EntityKind.input_eq_iff (k := .account) (l := .account) trivial trivial).mp heq
    exact .inl (hstored ▸ mem_of_mem_entries hmem)
  · exact .inr hbreaks

/-- The accounts determine the leaves and the tree. -/
theorem eq_of_accounts_eq (hhasher : s.hasher = t.hasher) (hblock : s.blockId = t.blockId)
    (hheight : s.height = t.height) (haccounts : s.accounts = t.accounts) : s = t := by
  have hall : s.all = t.all := congrArg SortedBy.items haccounts
  have hleaves : s.leaves = t.leaves := by
    rw [s.leaves_eq_ofAccounts, t.leaves_eq_ofAccounts, hhasher, hall]
  have htree : s.tree = t.tree := by
    rw [s.tree_eq_ofAccounts, t.tree_eq_ofAccounts, hhasher, hall]
  cases s
  cases t
  cases hblock
  cases hheight
  cases haccounts
  cases hleaves
  cases htree
  rfl

/-- **The root of the accounts binds them.** Under one hash function, two snapshots with the same
root hold the same accounts, or else the hash function breaks on what was digested to build the
two trees. In particular, a snapshot that a chain takes for the one it has is that one. -/
theorem accounts_eq_of_accountsRoot_eq (hhasher : s.hasher = t.hasher) :
    (s.accountsRoot = t.accountsRoot →
      s.accounts = t.accounts ∨ s.hasher.Breaks (s.digested ++ t.digested)) ∧
    (∀ c : Chain, c.snapshot? t.blockId = some s → s.sameAs t = true →
      c.addSnapshot t = .ok (c, s) ∧
        (s = t ∨ s.hasher.Breaks (s.digested ++ t.digested))) := by
  have hbinds (hroot : s.accountsRoot = t.accountsRoot) :
      s.accounts = t.accounts ∨ s.hasher.Breaks (s.digested ++ t.digested) := by
    refine or_iff_not_imp_right.mpr fun hbreaks => SortedBy.ext_mem fun a => ⟨?_, ?_⟩
    · exact fun ha => (mem_of_accountsRoot_eq hhasher hroot ha).resolve_right hbreaks
    · refine fun ha => (mem_of_accountsRoot_eq hhasher.symm hroot.symm ha).resolve_right ?_
      rw [← hhasher]
      exact fun hswapped => hbreaks (hswapped.mono (by simp))
  refine ⟨hbinds, fun c hc hsame => ⟨?_, ?_⟩⟩
  · rw [Chain.addSnapshot, hc]
    simp only [hsame, if_true]
  · simp only [sameAs, Bool.and_eq_true, decide_eq_true_eq] at hsame
    obtain ⟨⟨hblock, hheight⟩, hroot⟩ := hsame
    exact (hbinds hroot).imp_left (eq_of_accounts_eq hhasher hblock hheight)

/-- A digest that counts bytes breaks: two different snapshots have the same root. -/
theorem accounts_eq_of_accountsRoot_eq_sample :
    let s := Payment.sample.genesis
    let t := ({ Payment.sample with payerBalance := 99 } : Payment).genesis
    s.hasher = t.hasher ∧ s.accountsRoot = t.accountsRoot ∧ s.accounts ≠ t.accounts ∧
      s.hasher.Breaks (s.digested ++ t.digested) := by
  have hhasher (m : Payment) : m.genesis.hasher = m.hasher := SnapshotBuilder.hasher_sealed _ _
  have hroot : Payment.sample.genesis.accountsRoot =
      ({ Payment.sample with payerBalance := 99 } : Payment).genesis.accountsRoot := by
    decide +kernel
  have hbalances : Payment.sample.genesis.accounts.items.map Account.balance ≠
      ({ Payment.sample with payerBalance := 99 } : Payment).genesis.accounts.items.map
        Account.balance := by
    decide +kernel
  have hne : Payment.sample.genesis.accounts ≠
      ({ Payment.sample with payerBalance := 99 } : Payment).genesis.accounts :=
    fun heq => hbalances (by rw [heq])
  have hsame := (hhasher Payment.sample).trans (hhasher { Payment.sample with payerBalance := 99 }).symm
  exact ⟨hsame, hroot, hne, ((accounts_eq_of_accountsRoot_eq hsame).1 hroot).resolve_left hne⟩

end AccountSnapshot

end StakeLedger
