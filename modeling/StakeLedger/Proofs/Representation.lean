import StakeLedger.Offline.Report
import StakeLedger.Proofs.ContainerGrammar
import StakeLedger.Proofs.Retrieval

/-!
# What a snapshot holds

A snapshot keeps its accounts by identifier, a leaf for each identifier, and a tree that has the
accounts by leaf. The three are made one after the other when a snapshot is built. Unless two
accounts have one leaf, they hold the same accounts, and the way from an identifier through its leaf
into the tree leads to the account of that identifier, with a proof that is accepted.

How the accounts were collected leaves no trace: a snapshot is determined by its hash function, its
block, its height and the set of its accounts.

* `SnapshotBuilder.Edit` is an edit of the accounts of a builder. `Edit.record` says what an edit
  does to one identifier, without a collection, and the builder does this for all of them
  (`account?_afterAll`).
* `SnapshotBuilder.build_afterAll_eq_ok_iff` and `SnapshotFixture.build_eq_ok_iff` say which snapshot
  comes out of edits and of a fixture.
* `AccountSnapshot.items_leaves` and `AccountSnapshot.entries_perm` say what the map of the leaves
  and the tree hold.
* `AccountSnapshot.exists_authenticated` goes the way from an identifier to a proof.
* `AccountSnapshot.holds_and_proves` is the main statement.
-/

namespace StakeLedger

/-! ## Collecting accounts -/

namespace SnapshotBuilder

/-- An edit of the accounts that are collected. -/
inductive Edit
  /-- To add an account. -/
  | add (a : Account)
  /-- To replace an account. -/
  | update (a : Account)

/-- The account of an identifier after an edit, if `held` is the one before: an account is added
where there is none, and replaced where there is one. -/
def Edit.record (id : Identifier) (held : Option Account) : Edit → Option Account
  | .add a => if a.identifier = id then held.or (some a) else held
  | .update a => if a.identifier = id then held.map fun _ => a else held

/-- The builder after an edit that succeeds. -/
def perform (b : SnapshotBuilder) : Edit → Except LedgerError SnapshotBuilder
  | .add a => b.add a
  | .update a => b.update a

/-- The builder after an edit. One that fails leaves it as it is. -/
def after (b : SnapshotBuilder) (e : Edit) : SnapshotBuilder :=
  match b.perform e with
  | .ok next => next
  | .error _ => b

/-- The builder after edits, one after the other. -/
def afterAll (b : SnapshotBuilder) (edits : List Edit) : SnapshotBuilder :=
  edits.foldl after b

variable {b : SnapshotBuilder} {a old : Account} {id : Identifier}

theorem contains_eq (b : SnapshotBuilder) (id : Identifier) :
    b.accounts.contains id = (b.account? id).isSome := rfl

theorem after_add (b : SnapshotBuilder) (a : Account) :
    b.after (.add a) = if (b.account? a.identifier).isSome then b else b.replace a := by
  rw [after, perform, add, contains_eq]
  cases b.account? a.identifier <;> rfl

theorem after_update (b : SnapshotBuilder) (a : Account) :
    b.after (.update a) = if (b.account? a.identifier).isSome then b.replace a else b := by
  rw [after, perform, update, contains_eq]
  cases b.account? a.identifier <;> rfl

/-- An edit fails and changes nothing, or puts its account in place. -/
theorem after_cases (b : SnapshotBuilder) (e : Edit) :
    b.after e = b ∨ ∃ a, b.after e = b.replace a := by
  cases e with
  | add a =>
    rw [after_add]
    split
    · exact .inl rfl
    · exact .inr ⟨a, rfl⟩
  | update a =>
    rw [after_update]
    split
    · exact .inr ⟨a, rfl⟩
    · exact .inl rfl

/-- **What an edit does to an identifier.** -/
theorem account?_after (b : SnapshotBuilder) (e : Edit) (id : Identifier) :
    (b.after e).account? id = e.record id (b.account? id) := by
  cases e with
  | add a =>
    rw [after_add, Edit.record]
    by_cases hid : a.identifier = id
    · subst hid
      cases h : b.account? a.identifier <;> simp [h, account?_replace]
    · rw [if_neg hid]
      split
      · rfl
      · rw [account?_replace, if_neg hid]
  | update a =>
    rw [after_update, Edit.record]
    by_cases hid : a.identifier = id
    · subst hid
      cases h : b.account? a.identifier <;> simp [h, account?_replace]
    · rw [if_neg hid]
      split
      · rw [account?_replace, if_neg hid]
      · rfl

/-- **A builder holds what its edits record** under each identifier. -/
theorem account?_afterAll (b : SnapshotBuilder) (edits : List Edit) (id : Identifier) :
    (b.afterAll edits).account? id = edits.foldl (Edit.record id) (b.account? id) := by
  induction edits generalizing b with
  | nil => rfl
  | cons e rest ih =>
    rw [afterAll, List.foldl_cons, ← afterAll, ih, account?_after, List.foldl_cons]

theorem blockId_and_height_afterAll (b : SnapshotBuilder) (edits : List Edit) :
    (b.afterAll edits).blockId = b.blockId ∧ (b.afterAll edits).height = b.height := by
  induction edits generalizing b with
  | nil => exact ⟨rfl, rfl⟩
  | cons e rest ih =>
    rw [afterAll, List.foldl_cons, ← afterAll, (ih _).1, (ih _).2]
    rcases after_cases b e with he | ⟨a, he⟩ <;> rw [he]
    · exact ⟨rfl, rfl⟩
    · exact ⟨blockId_replace, height_replace⟩

end SnapshotBuilder

/-! ## Building snapshots -/

variable {s : AccountSnapshot} {h : Hasher}

namespace SnapshotBuilder

/-- **Which builders give a snapshot:** those with its block, its height and its accounts. -/
theorem build_eq_ok_iff {b : SnapshotBuilder} :
    b.build h = .ok s ↔ s.hasher = h ∧ b.blockId = s.blockId ∧ b.height = s.height ∧
      ∀ id, b.account? id = s.account? id := by
  rw [build_eq, Except.ok.injEq]
  constructor
  · rintro rfl
    exact ⟨rfl, rfl, rfl, fun _ => rfl⟩
  · rintro ⟨hhasher, hblock, hheight, haccounts⟩
    exact AccountSnapshot.eq_of_accounts_eq hhasher.symm hblock hheight
      (SortedBy.ext_find? haccounts)

theorem build_afterAll_eq_ok_iff {b : SnapshotBuilder} {edits : List Edit} :
    (b.afterAll edits).build h = .ok s ↔ s.hasher = h ∧ b.blockId = s.blockId ∧
      b.height = s.height ∧ ∀ id, edits.foldl (Edit.record id) (b.account? id) = s.account? id := by
  obtain ⟨hblock, hheight⟩ := blockId_and_height_afterAll b edits
  simp only [build_eq_ok_iff, hblock, hheight, account?_afterAll]

end SnapshotBuilder

/-- **Which fixtures describe a snapshot:** those that list its accounts, in whatever order. -/
theorem SnapshotFixture.build_eq_ok_iff {f : SnapshotFixture} :
    f.build h = .ok s ↔
      s.hasher = h ∧ f.blockId = s.blockId ∧ f.height = s.height ∧ f.accounts.Perm s.all := by
  have hs : (s.all.map Account.identifier).Nodup := s.accounts.nodup_keys
  by_cases hnodup : (f.accounts.map Account.identifier).Nodup
  · have hitems : (SortedBy.ofList f.accounts : Accounts).items.Perm f.accounts :=
      SortedBy.perm_ofList hnodup
    rw [build, SnapshotBuilder.addAll_empty_of_nodup _ _ hnodup]
    simp only [SnapshotBuilder.build_eq, Except.ok.injEq]
    constructor
    · rintro rfl
      exact ⟨rfl, rfl, rfl, hitems.symm⟩
    · rintro ⟨hhasher, hblock, hheight, hperm⟩
      exact AccountSnapshot.eq_of_accounts_eq hhasher.symm hblock hheight
        (SortedBy.ext_mem fun _ => (hitems.trans hperm).mem_iff)
  · constructor
    · intro hbuild
      obtain ⟨id, herror⟩ :=
        SnapshotBuilder.addAll_of_not_nodup ⟨f.blockId, f.height, .empty⟩ hnodup
      rw [build, herror] at hbuild
      cases hbuild
    · rintro ⟨-, -, -, hperm⟩
      exact absurd ((hperm.map _).nodup_iff.mpr hs) hnodup

/-! ## Leaves and tree -/

namespace AccountSnapshot

theorem account?_eq_some_iff {id : Identifier} {a : Account} :
    s.account? id = some a ↔ a ∈ s.all ∧ a.identifier = id :=
  SortedBy.find?_eq_some_iff

/-- The leaves stand in the order of the accounts. -/
theorem items_leaves (s : AccountSnapshot) :
    s.leaves.items = s.all.map fun a => (a.identifier, s.hasher.accountId a) := by
  have hascending : (s.all.map fun a => (a.identifier, s.hasher.accountId a)).Pairwise
      fun e e' => compare e.1 e'.1 = .lt :=
    List.pairwise_map.mpr s.accounts.ascending
  rw [leaves_eq_ofAccounts]
  exact congrArg SortedBy.items (SortedBy.ofList_items ⟨_, hascending⟩)

/-- **The leaf of an identifier is that of its account.** -/
theorem leaf_eq (s : AccountSnapshot) (id : Identifier) :
    s.leaf id = match s.account? id with
      | some a => .ok (s.hasher.accountId a)
      | none => .error (.notFound (.account id)) := by
  have hfind : s.leaves.find? id = (s.account? id).map fun a =>
      (a.identifier, s.hasher.accountId a) := by
    rw [SortedBy.find?, items_leaves, List.find?_map]
    rfl
  rw [leaf, hfind]
  cases s.account? id <;> rfl

/-- **The tree holds the accounts by their leaves,** if no two have one leaf. -/
theorem entries_perm (hids : (s.all.map s.hasher.accountId).Nodup) :
    s.tree.entries.items.Perm (s.all.map fun a => (s.hasher.accountId a, a)) := by
  have hkeys : ((s.all.map fun a => (s.hasher.accountId a, a)).map Prod.fst).Nodup := by
    rwa [List.map_map]
  rw [entries_tree]
  exact SortedBy.perm_ofList hkeys

/-! ## Proofs -/

/-- **Each account is handed out with a proof that is accepted.** -/
theorem exists_authenticated (hsize : s.size ≤ 2 ^ 64)
    (hids : (s.all.map s.hasher.accountId).Nodup) {id : Identifier} {a : Account}
    (ha : s.account? id = some a) :
    ∃ proof, s.authenticated id = .ok ⟨a, proof⟩ ∧
      (⟨a, proof⟩ : Authenticated Account).verifyAgainst s.hasher s.accountsRoot = true := by
  have hperm := entries_perm hids
  have hentry : (s.hasher.accountId a, a) ∈ s.tree.entries.items :=
    hperm.mem_iff.mpr (List.mem_map_of_mem (account?_eq_some_iff.mp ha).1)
  have hfind : s.tree.entries.find? (s.hasher.accountId a) = some (s.hasher.accountId a, a) :=
    SortedBy.find?_of_mem hentry
  have hleaf : s.leaf id = .ok (s.hasher.accountId a) := by
    rw [leaf_eq, ha]
  have htree : s.tree.size ≤ 2 ^ 64 := by
    rw [MerkleTree.size, SortedBy.size, hperm.length_eq, List.length_map]
    exact hsize
  obtain ⟨i, hi, hproof⟩ := MerkleTree.getProof_of_mem (List.mem_map_of_mem hentry)
  refine ⟨⟨s.tree.root, Merkle.path s.tree.levels i⟩, ?_,
    MerkleTree.verifyAgainst_path rfl htree (s.hasher.entityId_account a) hi⟩
  simp only [authenticated, hleaf, MerkleTree.get, hfind, hproof]
  rfl

theorem authenticated_of_none {id : Identifier} (ha : s.account? id = none) :
    s.authenticated id = .error (.notFound (.account id)) := by
  rw [authenticated, leaf_eq, ha]

/-- **A snapshot holds its accounts in three ways that agree, and proves each of them.** However a
snapshot came about, an account is found exactly under its own identifier, and the accounts are
listed once each, in ascending order of their identifiers. If no two accounts have one entity
identifier, the map of the leaves and the tree hold exactly these accounts, and for each identifier
the account that is found is handed out with a proof that is accepted against the root of the
accounts, as the report on it says, or nothing is found. What snapshot comes out of edits to a
builder, be it a new one or the successor of a snapshot, or out of a fixture, depends on nothing but
the hash function, the block, the height and the accounts that are held in the end, in whatever
order they came, and two snapshots that agree in these are equal. -/
theorem holds_and_proves (s : AccountSnapshot) (hsize : s.size ≤ 2 ^ 64)
    (hids : (s.all.map s.hasher.accountId).Nodup) :
    (∀ id a, s.account? id = some a ↔ a ∈ s.all ∧ a.identifier = id) ∧
    s.all.Pairwise (fun a a' => compare a.identifier a'.identifier = .lt) ∧
    s.leaves.items = s.all.map (fun a => (a.identifier, s.hasher.accountId a)) ∧
    s.tree.entries.items.Perm (s.all.map fun a => (s.hasher.accountId a, a)) ∧
    (∀ id a, s.account? id = some a → ∃ proof, s.authenticated id = .ok ⟨a, proof⟩ ∧
      (⟨a, proof⟩ : Authenticated Account).verifyAgainst s.hasher s.accountsRoot = true ∧
      ProveReport.ofSnapshot s s.hasher id = .ok ⟨⟨a, proof⟩, true⟩) ∧
    (∀ id, s.account? id = none → s.authenticated id = .error (.notFound (.account id))) ∧
    (∀ (b : SnapshotBuilder) edits, (b.afterAll edits).build s.hasher = .ok s ↔
      b.blockId = s.blockId ∧ b.height = s.height ∧
        ∀ id, edits.foldl (SnapshotBuilder.Edit.record id) (b.account? id) = s.account? id) ∧
    (∀ f : SnapshotFixture, f.build s.hasher = .ok s ↔
      f.blockId = s.blockId ∧ f.height = s.height ∧ f.accounts.Perm s.all) ∧
    (∀ t : AccountSnapshot, t.hasher = s.hasher → t.blockId = s.blockId → t.height = s.height →
      (∀ a, a ∈ t.all ↔ a ∈ s.all) → t = s) := by
  refine ⟨fun id a => account?_eq_some_iff, s.accounts.ascending, s.items_leaves,
    entries_perm hids, fun id a ha => ?proof, fun id => authenticated_of_none,
    fun b edits => ?edits, fun f => ?fixture, fun t hhasher hblock hheight hall => ?equal⟩
  case proof =>
    obtain ⟨proof, hauthenticated, hverify⟩ := exists_authenticated hsize hids ha
    refine ⟨proof, hauthenticated, hverify, ?_⟩
    simp only [ProveReport.ofSnapshot, hauthenticated, hverify]
  case edits => exact SnapshotBuilder.build_afterAll_eq_ok_iff.trans (and_iff_right rfl)
  case fixture => exact SnapshotFixture.build_eq_ok_iff.trans (and_iff_right rfl)
  case equal => exact eq_of_accounts_eq hhasher hblock hheight (SortedBy.ext_mem hall)

/-- Three accounts, which a fixture lists in another order. -/
theorem holds_and_proves_sample :
    let s := SnapshotBuilder.sealed ⟨Payment.origin, 0, .ofList MerkleTree.sampleAccounts⟩ .numeral
    s.size ≤ 2 ^ 64 ∧ (s.all.map s.hasher.accountId).Nodup ∧
      (∃ proof, s.authenticated Payment.payee = .ok ⟨Payment.sample.payeeAccount, proof⟩ ∧
        ProveReport.ofSnapshot s s.hasher Payment.payee =
          .ok ⟨⟨Payment.sample.payeeAccount, proof⟩, true⟩) ∧
      s.authenticated .zero = .error (.notFound (.account .zero)) ∧
      (SnapshotFixture.mk Payment.origin 0 MerkleTree.sampleAccounts.reverse).build s.hasher =
        .ok s := by
  intro s
  have hsize : s.size ≤ 2 ^ 64 := by
    have hthree : s.size = 3 := by decide +kernel
    rw [hthree]
    decide
  have hids : (s.all.map s.hasher.accountId).Nodup := by decide +kernel
  obtain ⟨-, -, -, -, hsome, hnone, -, hfixture, -⟩ := holds_and_proves s hsize hids
  obtain ⟨proof, hauthenticated, -, hreport⟩ :=
    hsome Payment.payee Payment.sample.payeeAccount (by decide +kernel)
  refine ⟨hsize, hids, ⟨proof, hauthenticated, hreport⟩, hnone .zero (by decide +kernel),
    (hfixture _).mpr ⟨rfl, rfl, ?_⟩⟩
  have hnodup : (MerkleTree.sampleAccounts.map Account.identifier).Nodup := by decide +kernel
  have hall : s.all.Perm MerkleTree.sampleAccounts := SortedBy.perm_ofList hnodup
  exact (List.reverse_perm _).trans hall.symm

end AccountSnapshot

end StakeLedger
