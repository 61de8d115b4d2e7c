import StakeLedger.Proofs.Binding
import StakeLedger.Proofs.MerklePaths
import StakeLedger.Proofs.Outcomes

/-!
# Membership proofs are sound

A proof that is accepted against the root of a tree is about an entity that the tree stores, for
whatever path it has: too short or too long for the tree, through the second copy of an odd node,
or from an inner node. Otherwise the hash function breaks on the strings that were digested.

* `MerkleTree.Built` are the trees that come out of the empty one by any additions, with all that
  is digested on the way.
* `Authenticated.digested` is what is digested to check a proof.
* `MerkleTree.Built.stored_of_verifyAgainst` is the soundness of proofs.
-/

namespace StakeLedger

namespace MerkleTree

open Merkle (nodeInputs pathInputs Recorded)

variable {α : Type} [Entity α] {h : Hasher} {t next : MerkleTree α} {inputs : List Bytes}

/-! ## Additions -/

theorem identify_eq_ok_iff {x : α} {id : Identifier} :
    identify h x = .ok id ↔ h.entityId x = .ok id := by
  unfold identify
  split
  · next fault he => simp [he]
  · rfl

omit [Entity α] in
/-- The leaves are the identifiers of the entities. -/
theorem headD_levels (t : MerkleTree α) : t.levels.headD [] = t.entries.keys := by
  obtain ⟨rest, hrest⟩ := Merkle.exists_levels_eq_cons t.hasher t.entries.keys
  rw [t.levels_eq, hrest]
  rfl

omit [Entity α] in
/-- The proof for a leaf is the path from its place. -/
theorem getProof_of_mem {id : Identifier} (hid : id ∈ t.entries.keys) :
    ∃ i, t.entries.keys[i]? = some id ∧
      t.getProof id = .ok ⟨t.root, Merkle.path t.levels i⟩ := by
  obtain ⟨i, hi⟩ := Option.isSome_iff_exists.mp (List.isSome_idxOf?.mpr hid)
  obtain ⟨hlt, heq, -⟩ := List.idxOf?_eq_some_iff.mp hi
  refine ⟨i, ?_, ?_⟩
  · rw [List.getElem?_eq_getElem hlt, heq]
  · rw [getProof, headD_levels, hi]

omit [Entity α] in
/-- What is stored is handed out. -/
theorem exists_get {id : Identifier} {e : Identifier × α} (he : t.entries.find? id = some e) :
    ∃ proof, t.get id = .ok ⟨e.2, proof⟩ := by
  have hid : id ∈ t.entries.keys := SortedBy.mem_keys_iff.mpr (by rw [he, Option.isSome_some])
  obtain ⟨i, -, hproof⟩ := getProof_of_mem hid
  simp only [get, he, hproof]
  exact ⟨_, rfl⟩

theorem put_of_entityId {x : α} {id : Identifier} (hid : t.hasher.entityId x = .ok id) :
    ∃ proof, t.put x = .ok (ofEntries t.hasher (t.entries.insert (id, x)), ⟨x, proof⟩) := by
  have hfind : (t.entries.insert (id, x)).find? id = some (id, x) := by
    rw [SortedBy.find?_insert, if_pos rfl]
  obtain ⟨proof, hget⟩ := exists_get (t := ofEntries t.hasher (t.entries.insert (id, x))) hfind
  rw [put, identify_eq_ok_iff.mpr hid]
  simp only [hget]
  exact ⟨proof, rfl⟩

theorem put_eq_ok {x : α} {a : Authenticated α} (hput : t.put x = .ok (next, a)) :
    ∃ id, t.hasher.entityId x = .ok id ∧ next = ofEntries t.hasher (t.entries.insert (id, x)) := by
  unfold put at hput
  split at hput
  · cases hput
  · next id hid =>
    refine ⟨id, identify_eq_ok_iff.mp hid, ?_⟩
    obtain ⟨_, _, heq⟩ := exists_of_map_eq_ok hput
    cases heq
    rfl

theorem putAll_eq_ok {xs : List α} (hput : t.putAll xs = .ok next) :
    ∃ staged, identifyAll t.hasher xs = .ok staged ∧
      next = ofEntries t.hasher (t.entries.insertAll staged) := by
  obtain ⟨staged, hstaged, heq⟩ := exists_of_map_eq_ok hput
  exact ⟨staged, hstaged, heq.symm⟩

theorem entityId_of_mem_identifyAll {xs : List α} {staged : List (Identifier × α)}
    (hxs : identifyAll h xs = .ok staged) :
    ∀ e ∈ staged, e.2 ∈ xs ∧ h.entityId e.2 = .ok e.1 := by
  induction xs generalizing staged with
  | nil =>
    cases hxs
    simp
  | cons x rest ih =>
    unfold identifyAll at hxs
    split at hxs
    · cases hxs
    · next id hid =>
      obtain ⟨more, hrest, rfl⟩ := exists_of_map_eq_ok hxs
      intro e he
      rcases List.mem_cons.mp he with rfl | he
      · exact ⟨List.mem_cons_self, identify_eq_ok_iff.mp hid⟩
      · exact (ih hrest e he).imp_left (List.mem_cons_of_mem _)

/-! ## Trees and what was digested for them -/

/-- The trees that come out of the empty one by additions, with all the strings that are digested
for the identifiers of what is added and for the nodes of each tree on the way. An addition that
fails leaves the tree as it is. -/
inductive Built (h : Hasher) : MerkleTree α → List Bytes → Prop
  | empty : Built h (.empty h) []
  | put {t next : MerkleTree α} {inputs : List Bytes} {x : α} {a : Authenticated α} :
    Built h t inputs → t.put x = .ok (next, a) →
    Built h next (inputs ++ ([Entity.input x] ++ nodeInputs h next.entries.keys))
  | putAll {t next : MerkleTree α} {inputs : List Bytes} {xs : List α} :
    Built h t inputs → t.putAll xs = .ok next →
    Built h next (inputs ++ (xs.map Entity.input ++ nodeInputs h next.entries.keys))

/-- Every entity is stored under its identifier, and the strings of the entities and of the nodes
are among those that were digested. -/
structure Traced (h : Hasher) (t : MerkleTree α) (inputs : List Bytes) : Prop where
  hasher_eq : t.hasher = h
  entry : ∀ e ∈ t.entries.items, h.entityId e.2 = .ok e.1 ∧ Entity.input e.2 ∈ inputs
  node : nodeInputs h t.entries.keys ⊆ inputs

theorem Traced.add (ht : Traced h t inputs)
    {entries : SortedBy (Prod.fst : Identifier × α → Identifier)} {added : List Bytes}
    (hentries : ∀ e ∈ entries.items, e ∈ t.entries.items ∨
      (h.entityId e.2 = .ok e.1 ∧ Entity.input e.2 ∈ added)) :
    Traced h (ofEntries h entries) (inputs ++ (added ++ nodeInputs h entries.keys)) where
  hasher_eq := rfl
  entry e he := by
    rcases hentries e he with hold | ⟨hid, hnew⟩
    · exact (ht.entry e hold).imp_right (List.mem_append_left _)
    · exact ⟨hid, by simp [hnew]⟩
  node s hs := by
    change s ∈ nodeInputs h entries.keys at hs
    simp [hs]

theorem Built.traced (ht : Built h t inputs) : Traced h t inputs := by
  induction ht with
  | empty =>
    refine ⟨rfl, nofun, ?_⟩
    change nodeInputs h [] ⊆ []
    rw [Merkle.nodeInputs_of_length_le_one (by simp)]
    exact List.nil_subset _
  | put ht hput ih =>
    obtain ⟨id, hid, rfl⟩ := put_eq_ok hput
    rw [ih.hasher_eq] at hid ⊢
    refine ih.add fun e he => ?_
    rcases SortedBy.mem_of_mem_place he with rfl | he
    · exact .inr ⟨hid, List.mem_singleton_self _⟩
    · exact .inl he
  | putAll ht hput ih =>
    obtain ⟨staged, hstaged, rfl⟩ := putAll_eq_ok hput
    rw [ih.hasher_eq] at hstaged ⊢
    refine ih.add fun e he => ?_
    rcases SortedBy.mem_of_mem_insertAll he with he | he
    · exact .inl he
    · obtain ⟨hmem, hid⟩ := entityId_of_mem_identifyAll hstaged e he
      exact .inr ⟨hid, List.mem_map_of_mem hmem⟩

/-! ## Trees of one of the four kinds -/

section Kinds

variable {k : EntityKind} {t : MerkleTree k.Carrier} {all : List Bytes} {x : k.Carrier}
  {path : List ProofStep}

theorem Built.recorded (ht : Built h t inputs) (hall : inputs ⊆ all) :
    Recorded h t.entries.keys all where
  leaf id hid := by
    obtain ⟨e, he, rfl⟩ := List.mem_map.mp hid
    obtain ⟨heid, hinput⟩ := ht.traced.entry e he
    exact ⟨_, hall hinput, EntityKind.length_input_ne e.2, (Hasher.entityId_eq_ok heid).symm⟩
  node := List.Subset.trans ht.traced.node hall

theorem Built.root_eq (ht : Built h t inputs) :
    t.root = Merkle.top (Merkle.levels h t.entries.keys) := by
  rw [root, t.levels_eq, ht.traced.hasher_eq]

/-- From each leaf a path leads to the root, on which nothing new is digested. -/
theorem Built.exists_path (ht : Built h t inputs) {id : Identifier} (hid : id ∈ t.entries.keys) :
    ∃ path : List ProofStep,
      path.foldl (ProofStep.apply h) id = t.root ∧ pathInputs h id path ⊆ inputs := by
  obtain ⟨i, hi⟩ := List.mem_iff_getElem?.mp hid
  obtain ⟨hfold, hsub⟩ := Merkle.foldl_path_eq_top (h := h) hi
  exact ⟨_, hfold.trans ht.root_eq.symm, List.Subset.trans hsub ht.traced.node⟩

/-- An entity from which a path leads to the root is stored, or the hash function breaks. -/
theorem Built.exists_mem_of_foldl_eq_root (ht : Built h t inputs) (hall : inputs ⊆ all)
    (hx : Entity.input x ∈ all)
    (hpath : pathInputs h (h.digestBytes (Entity.input x)) path ⊆ all)
    (hroot : path.foldl (ProofStep.apply h) (h.digestBytes (Entity.input x)) = t.root) :
    (∃ stored, (h.digestBytes (Entity.input x), stored) ∈ t.entries.items ∧
      Entity.input stored = Entity.input x) ∨ h.Breaks all := by
  have hmem := (ht.recorded hall).mem_of_foldl_eq_top hx (EntityKind.length_input_ne x) hpath
    (hroot.trans ht.root_eq)
  rcases hmem with hmem | hbreaks
  · obtain ⟨⟨id, stored⟩, he, rfl⟩ := List.mem_map.mp hmem
    obtain ⟨hid, hinput⟩ := ht.traced.entry _ he
    rcases Hasher.eq_or_breaks (hall hinput) hx (Hasher.entityId_eq_ok hid).symm with heq | hbreaks
    · exact .inl ⟨stored, he, heq⟩
    · exact .inr hbreaks
  · exact .inr hbreaks

end Kinds

end MerkleTree

namespace Authenticated

variable {α : Type} [Entity α] {h : Hasher} {a : Authenticated α}

/-- What is digested to check the proof of an entity. -/
def digested (h : Hasher) (a : Authenticated α) : List Bytes :=
  Entity.input a.entity ::
    Merkle.pathInputs h (h.digestBytes (Entity.input a.entity)) a.proof.path

theorem verifyAgainst_eq_true_iff {root : Identifier} :
    a.verifyAgainst h root = true ↔
      a.proof.root = root ∧ a.proof.path.length ≤ MembershipProof.maxDepth ∧
        ∃ leaf, h.entityId a.entity = .ok leaf ∧ a.proof.computeRoot h leaf = root := by
  rw [verifyAgainst, Bool.and_eq_true, decide_eq_true_eq]
  refine and_congr_right fun hroot => ?_
  rw [verify, ← hroot]
  split
  · next hlen => simp [Nat.not_le.mpr hlen]
  · next hlen =>
    cases h.entityId a.entity <;> simp [Nat.not_lt.mp hlen]

end Authenticated

namespace MerkleTree

open Merkle (nodeInputs)

/-- **An accepted proof is about a stored entity.** If the proof of an entity is accepted against
the root of a tree, the tree stores an entity with its identity bytes under its identifier, which
for an account is that account. Otherwise the hash function breaks on what was digested to build
the tree and to check the proof. -/
theorem Built.stored_of_verifyAgainst {k : EntityKind} {h : Hasher} {t : MerkleTree k.Carrier}
    {inputs : List Bytes} (ht : Built h t inputs) (a : Authenticated k.Carrier)
    (ha : a.verifyAgainst h t.root = true) :
    (∃ id stored, h.entityId a.entity = .ok id ∧ t.entries.find? id = some (id, stored) ∧
        Entity.identityBytes stored = Entity.identityBytes a.entity ∧
        (k = .account → stored = a.entity)) ∨
      h.Breaks (inputs ++ a.digested h) := by
  obtain ⟨-, -, id, hid, hroot⟩ := Authenticated.verifyAgainst_eq_true_iff.mp ha
  obtain rfl := Hasher.entityId_eq_ok hid
  have hinput : Entity.input a.entity ∈ inputs ++ a.digested h := by simp [Authenticated.digested]
  have hpath : Merkle.pathInputs h (h.digestBytes (Entity.input a.entity)) a.proof.path ⊆
      inputs ++ a.digested h := fun s hs => by simp [Authenticated.digested, hs]
  rcases ht.exists_mem_of_foldl_eq_root (List.subset_append_left _ _) hinput hpath hroot with
    ⟨stored, hmem, heq⟩ | hbreaks
  · refine .inl ⟨_, stored, hid, SortedBy.find?_of_mem hmem, ?_, ?_⟩
    · rw [EntityKind.identityBytes_eq, EntityKind.identityBytes_eq,
        EntityKind.payload_eq_of_input_eq heq]
    · rintro rfl
      exact (EntityKind.input_eq_iff (k := .account) (l := .account) trivial trivial).mp heq
  · exact .inr hbreaks

/-- Three accounts. -/
def sampleAccounts : List Account :=
  [Payment.sample.payerAccount, Payment.sample.payeeAccount,
    { Payment.sample.payerAccount with identifier := Payment.origin, balance := 7 }]

/-- A tree with an odd level. -/
def sample : MerkleTree EntityKind.account.Carrier := ofAccounts .numeral sampleAccounts

/-- The proof of the odd leaf. -/
def sampleProof : Authenticated EntityKind.account.Carrier :=
  ⟨Payment.sample.payeeAccount, sample.root, Merkle.path sample.levels 2⟩

theorem Built.stored_of_verifyAgainst_sample :
    let inputs := sampleAccounts.map Entity.input ++ nodeInputs .numeral sample.entries.keys
    Built .numeral sample inputs ∧ sampleProof.verifyAgainst .numeral sample.root = true ∧
      ((∃ id, Hasher.numeral.entityId sampleProof.entity = .ok id ∧
        sample.entries.find? id = some (id, sampleProof.entity)) ∨
        Hasher.numeral.Breaks (inputs ++ sampleProof.digested .numeral)) := by
  intro inputs
  have ht : Built .numeral sample inputs :=
    .putAll .empty (ofEntities_accounts .numeral sampleAccounts)
  have ha : sampleProof.verifyAgainst .numeral sample.root = true := by decide +kernel
  refine ⟨ht, ha, (ht.stored_of_verifyAgainst sampleProof ha).imp_left ?_⟩
  rintro ⟨id, stored, hid, hfind, -, heq⟩
  exact ⟨id, hid, heq rfl ▸ hfind⟩

end MerkleTree

end StakeLedger
