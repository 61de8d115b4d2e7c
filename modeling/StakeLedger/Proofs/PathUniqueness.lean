import Mathlib.Data.List.Nodup
import StakeLedger.Proofs.Membership

/-!
# There is one path from a leaf to the root

A path from a leaf that leads to the root is the one that the tree issues for this leaf, of the
same length and with the same siblings. The sides are the same too, but where a sibling is equal
to the node that it stands beside: there it does not matter on which side it stands. Otherwise the
hash function breaks.

* `Merkle.Ranked` says of one level of a tree that its nodes are different from each other and from
  those above it, and that they are digested nowhere below. The leaves are so, and what one level
  is, the next one is too (`Merkle.Ranked.parents`).
* `Merkle.Retraces` compares two paths. `Merkle.Ranked.retraces` walks up the levels, one step of
  the path at each.
* `MerkleTree.Built.retraces_of_verifyAgainst` is the main statement.
-/

namespace StakeLedger

namespace Merkle

open Hasher (pairInput)

variable {h : Hasher} {level leaves : List Identifier} {inputs : List Bytes} {x : Identifier}

/-! ## One level -/

theorem nodup_parentInputs (hnodup : level.Nodup) : (parentInputs level).Nodup := by
  fun_induction parentInputs level with
  | case1 => exact List.nodup_nil
  | case2 last => exact List.nodup_singleton _
  | case3 left right rest ih =>
    obtain ⟨hleft, hrest⟩ := List.nodup_cons.mp hnodup
    refine List.nodup_cons.mpr ⟨fun hmem => hleft ?_, ih hrest.of_cons⟩
    obtain ⟨a, ha, b, -, heq⟩ := exists_of_mem_parentInputs hmem
    rw [(Hasher.pairInput_inj.mp heq).1]
    exact List.mem_cons_of_mem _ ha

/-- **The step that is digested for a level is the issued one,** but for the side of a sibling that
is equal to the node. -/
theorem step_of_input_mem (hnodup : level.Nodup) {i : Nat} (hx : level[i]? = some x)
    {s : ProofStep} (hs : s.input x ∈ parentInputs level) :
    s.sibling = (step level i).sibling ∧ (s.side = (step level i).side ∨ s.sibling = x) ∧
      s.input x = (step level i).input x := by
  fun_induction parentInputs level generalizing i with
  | case1 => cases hs
  | case2 last =>
    obtain ⟨rfl, rfl⟩ : i = 0 ∧ last = x := by
      cases i with
      | zero => simpa using hx
      | succ i => simp at hx
    rcases ProofStep.input_eq_pairInput_iff.mp (List.mem_singleton.mp hs) with ⟨-, rfl⟩ | ⟨-, rfl⟩
    · exact ⟨rfl, .inl rfl, rfl⟩
    · exact ⟨rfl, .inr rfl, rfl⟩
  | case3 left right rest ih =>
    obtain ⟨hleft, hright, hrest⟩ : left ∉ right :: rest ∧ right ∉ rest ∧ rest.Nodup := by
      simpa only [List.nodup_cons] using hnodup
    have hmem (hin : s.input x ∈ parentInputs rest) : x ∈ rest := by
      obtain ⟨a, ha, b, hb, heq⟩ := exists_of_mem_parentInputs hin
      rcases ProofStep.input_eq_pairInput_iff.mp heq with ⟨rfl, -⟩ | ⟨rfl, -⟩
      · exact ha
      · exact hb
    rcases i with _ | _ | i
    · obtain rfl : left = x := by simpa using hx
      rcases List.mem_cons.mp hs with heq | hin
      · rcases ProofStep.input_eq_pairInput_iff.mp heq with ⟨-, rfl⟩ | ⟨rfl, -⟩
        · exact ⟨rfl, .inl rfl, rfl⟩
        · exact absurd List.mem_cons_self hleft
      · exact absurd (List.mem_cons_of_mem _ (hmem hin)) hleft
    · obtain rfl : right = x := by simpa using hx
      rcases List.mem_cons.mp hs with heq | hin
      · rcases ProofStep.input_eq_pairInput_iff.mp heq with ⟨rfl, -⟩ | ⟨-, rfl⟩
        · exact absurd List.mem_cons_self hleft
        · exact ⟨rfl, .inl rfl, rfl⟩
      · exact absurd (hmem hin) hright
    · have hx' : x ∈ rest := List.mem_of_getElem? (by simpa using hx)
      rcases List.mem_cons.mp hs with heq | hin
      · rcases ProofStep.input_eq_pairInput_iff.mp heq with ⟨rfl, -⟩ | ⟨rfl, -⟩
        · exact absurd (List.mem_cons_of_mem _ hx') hleft
        · exact absurd hx' hright
      · rw [step_cons_cons]
        exact ih hrest (by simpa using hx) hin

/-! ## One level after the other -/

/-- Whether a level of the tree over the given leaves is apart from all others. -/
structure Ranked (h : Hasher) (leaves level : List Identifier) : Prop where
  /-- Its nodes are different. -/
  nodup : level.Nodup
  /-- None is the digest of a pair at or above the level. -/
  apart : ∀ s ∈ nodeInputs h level, h.digestBytes s ∉ level
  /-- A pair in the tree that holds a node at or above the level is itself there. -/
  owned : ∀ (node : Identifier) (s : ProofStep), IsNode h level node →
    s.input node ∈ nodeInputs h leaves → s.input node ∈ nodeInputs h level

namespace Ranked

/-- The leaves are apart from the nodes above, which are digests of pairs. -/
theorem of_recorded (ht : Recorded h leaves inputs) (hb : ¬ h.Breaks inputs)
    (hnodup : leaves.Nodup) : Ranked h leaves leaves where
  nodup := hnodup
  apart s hs hmem := by
    obtain ⟨t, ht', hlen, heq⟩ := ht.leaf _ hmem
    rcases Hasher.eq_or_breaks ht' (ht.node hs) heq with rfl | hbreaks
    · exact hlen (length_of_mem_nodeInputs hs)
    · exact hb hbreaks
  owned _ _ _ hs := hs

/-- **A step up.** The next level is apart too. -/
theorem parents (hr : Ranked h leaves level) (hlen : 1 < level.length)
    (hsub : nodeInputs h level ⊆ inputs) (hb : ¬ h.Breaks inputs) :
    Ranked h leaves (Merkle.parents h level) where
  nodup := by
    rw [nodeInputs_of_one_lt_length hlen] at hsub
    rw [parents_eq]
    refine (nodup_parentInputs hr.nodup).map_on fun s hs t ht heq => ?_
    exact (Hasher.eq_or_breaks (hsub (List.mem_append_left _ hs)) (hsub (List.mem_append_left _ ht))
      heq).resolve_right hb
  apart s hs hmem := by
    rw [parents_eq, List.mem_map] at hmem
    obtain ⟨t, ht, heq⟩ := hmem
    rw [nodeInputs_of_one_lt_length hlen] at hsub
    obtain rfl := (Hasher.eq_or_breaks (hsub (List.mem_append_left _ ht))
      (hsub (List.mem_append_right _ hs)) heq).resolve_right hb
    -- the pair is one of nodes of this level and one of nodes above it
    obtain ⟨a, ha, b, -, rfl⟩ := exists_of_mem_parentInputs ht
    obtain ⟨c, d, hc, -, heq⟩ := exists_of_mem_nodeInputs hs
    obtain ⟨u, hu, rfl⟩ := ((Hasher.pairInput_inj.mp heq).1 ▸ hc).exists_of_parents hlen
    exact hr.apart u hu ha
  owned node s hnode hs := by
    have hmem := hr.owned node s (.of_parents hlen hnode) hs
    rw [nodeInputs_of_one_lt_length hlen] at hmem
    refine (List.mem_append.mp hmem).resolve_left fun hmem => ?_
    obtain ⟨u, hu, rfl⟩ := hnode.exists_of_parents hlen
    obtain ⟨a, ha, b, hb, heq⟩ := exists_of_mem_parentInputs hmem
    rcases ProofStep.input_eq_pairInput_iff.mp heq with ⟨rfl, -⟩ | ⟨rfl, -⟩
    · exact hr.apart u hu ha
    · exact hr.apart u hu hb

/-- A pair in the tree that holds a node of the level is one of the level. -/
theorem input_mem (hr : Ranked h leaves level) (hx : x ∈ level) {s : ProofStep}
    (hs : s.input x ∈ nodeInputs h leaves) : 1 < level.length ∧ s.input x ∈ parentInputs level := by
  have hmem := hr.owned x s (.inl hx) hs
  rcases Nat.lt_or_ge 1 level.length with hlen | hlen
  · refine ⟨hlen, ?_⟩
    rw [nodeInputs_of_one_lt_length hlen] at hmem
    refine (List.mem_append.mp hmem).resolve_right fun hmem => ?_
    obtain ⟨a, b, ha, hb, heq⟩ := exists_of_mem_nodeInputs hmem
    have hnode : IsNode h (Merkle.parents h level) x := by
      rcases ProofStep.input_eq_pairInput_iff.mp heq with ⟨rfl, -⟩ | ⟨rfl, -⟩
      · exact ha
      · exact hb
    obtain ⟨u, hu, rfl⟩ := hnode.exists_of_parents hlen
    exact hr.apart u hu hx
  · rw [nodeInputs_of_length_le_one hlen] at hmem
    cases hmem

end Ranked

/-! ## Two paths -/

/-- Whether a path from a node goes the way of an issued one: with the same siblings, each on the
same side or equal to the node that it stands beside. -/
inductive Retraces (h : Hasher) : Identifier → List ProofStep → List ProofStep → Prop
  | nil {node : Identifier} : Retraces h node [] []
  | cons {node : Identifier} {s issued : ProofStep} {path rest : List ProofStep} :
    s.sibling = issued.sibling → (s.side = issued.side ∨ s.sibling = node) →
    Retraces h (s.apply h node) path rest → Retraces h node (s :: path) (issued :: rest)

namespace Retraces

variable {node : Identifier} {path issued : List ProofStep}

theorem length_eq (hr : Retraces h node path issued) : path.length = issued.length := by
  induction hr with
  | nil => rfl
  | cons _ _ _ ih => rw [List.length_cons, List.length_cons, ih]

theorem siblings_eq (hr : Retraces h node path issued) :
    path.map ProofStep.sibling = issued.map ProofStep.sibling := by
  induction hr with
  | nil => rfl
  | cons hsibling _ _ ih => rw [List.map_cons, List.map_cons, hsibling, ih]

theorem side_eq_or (hr : Retraces h node path issued) {i : Nat} {s t : ProofStep}
    (hs : path[i]? = some s) (ht : issued[i]? = some t) :
    s.side = t.side ∨ s.sibling = (path.take i).foldl (ProofStep.apply h) node := by
  induction hr generalizing i with
  | nil => simp at hs
  | cons _ hside _ ih =>
    cases i with
    | zero =>
      obtain rfl : _ = s := by simpa using hs
      obtain rfl : _ = t := by simpa using ht
      exact hside
    | succ i => exact ih (by simpa using hs) (by simpa using ht)

end Retraces

/-- **A path to the root is the issued one.** -/
theorem Ranked.retraces (hr : Ranked h leaves level) (hsub : nodeInputs h level ⊆ inputs)
    (hb : ¬ h.Breaks inputs) {i : Nat} (hx : level[i]? = some x) {path : List ProofStep}
    (hpath : pathInputs h x path ⊆ nodeInputs h leaves)
    (htop : path.foldl (ProofStep.apply h) x = top (levels h level)) :
    Retraces h x path (Merkle.path (levels h level) i) := by
  have hmem := List.mem_of_getElem? hx
  induction level using levels.induct h generalizing i x path with
  | case1 level hlen =>
    rw [levels_of_length_le_one hlen]
    cases path with
    | nil => exact .nil
    | cons s path =>
      have hs := hpath List.mem_cons_self
      exact absurd (hr.input_mem hmem hs).1 (Nat.not_lt.mpr hlen)
  | case2 level hle ih =>
    have hlen := Nat.not_le.mp hle
    rw [top_levels_of_one_lt_length hlen] at htop
    rw [path_levels_of_one_lt_length hlen]
    cases path with
    | nil =>
      have hne : Merkle.parents h level ≠ [] := by
        rw [← List.length_pos_iff, length_parents]
        omega
      obtain ⟨u, hu, heq⟩ := (isNode_top (h := h) hne).exists_of_parents hlen
      rw [← htop] at heq
      exact absurd (heq ▸ hmem) (hr.apart u hu)
    | cons s path =>
      obtain ⟨hs, hrest⟩ := List.cons_subset.mp hpath
      obtain ⟨hsibling, hside, hinput⟩ :=
        step_of_input_mem hr.nodup hx (hr.input_mem hmem hs).2
      have hparent : (Merkle.parents h level)[i / 2]? = some (s.apply h x) := by
        rw [parents_eq, List.getElem?_map, getElem?_parentInputs hx, ← hinput, ProofStep.apply_eq]
        rfl
      have hsub' : nodeInputs h (Merkle.parents h level) ⊆ inputs := fun t ht => hsub <| by
        rw [nodeInputs_of_one_lt_length hlen]
        exact List.mem_append_right _ ht
      exact .cons hsibling hside (ih (hr.parents hlen hsub hb) hsub' hparent hrest htop
        (List.mem_of_getElem? hparent))

end Merkle

namespace MerkleTree

open Merkle (nodeInputs pathInputs Ranked Retraces)

section Kinds

variable {k : EntityKind} {h : Hasher} {t : MerkleTree k.Carrier} {inputs : List Bytes}

/-- A path that leads from a leaf to the root retraces the issued one, or the hash function
breaks. -/
theorem Built.retraces_of_foldl_eq_root (ht : Built h t inputs) {all : List Bytes}
    (hall : inputs ⊆ all) {id : Identifier} {i : Nat} (hi : t.entries.keys[i]? = some id)
    {path : List ProofStep} (hpath : pathInputs h id path ⊆ all)
    (hroot : path.foldl (ProofStep.apply h) id = t.root) :
    Retraces h id path (Merkle.path t.levels i) ∨ h.Breaks all := by
  refine or_iff_not_imp_right.mpr fun hb => ?_
  have hrecorded := ht.recorded hall
  have hranked := Ranked.of_recorded hrecorded hb t.entries.nodup_keys
  have hne : t.entries.keys ≠ [] := List.ne_nil_of_mem (List.mem_of_getElem? hi)
  rw [ht.root_eq] at hroot
  have hnode := hroot ▸ Merkle.isNode_top (h := h) hne
  have hsub := ((hrecorded.isNode_of_isNode_foldl hpath hnode).resolve_right hb).2
  rw [t.levels_eq, ht.traced.hasher_eq]
  exact hranked.retraces hrecorded.node hb hi hsub hroot

/-- **An accepted proof is the issued one.** If the proof of a stored entity is accepted against
the root, it has the root, the length and the siblings of the proof that the tree issues, and each
sibling is on the same side or equal to the node that it stands beside. Otherwise the hash function
breaks on what was digested to build the tree and to check the proof. -/
theorem Built.retraces_of_verifyAgainst (ht : Built h t inputs) {id : Identifier} {x : k.Carrier}
    (hx : (id, x) ∈ t.entries.items) (p : MembershipProof)
    (hp : (⟨x, p⟩ : Authenticated k.Carrier).verifyAgainst h t.root = true) :
    (∃ issued, t.getProof id = .ok issued ∧ p.root = issued.root ∧
        p.path.length = issued.path.length ∧
        p.path.map ProofStep.sibling = issued.path.map ProofStep.sibling ∧
        ∀ (i : Nat) (s s' : ProofStep), p.path[i]? = some s → issued.path[i]? = some s' →
          s.side = s'.side ∨ s.sibling = (p.path.take i).foldl (ProofStep.apply h) id) ∨
      h.Breaks (inputs ++ (⟨x, p⟩ : Authenticated k.Carrier).digested h) := by
  obtain ⟨hroot, -, leaf, hleaf, hfold⟩ := Authenticated.verifyAgainst_eq_true_iff.mp hp
  have hid := (ht.traced.entry _ hx).1
  obtain rfl : leaf = id := Except.ok.inj (hleaf.symm.trans hid)
  obtain ⟨i, hi, hproof⟩ := getProof_of_mem (List.mem_map_of_mem hx : leaf ∈ t.entries.keys)
  have hpath : pathInputs h leaf p.path ⊆
      inputs ++ (⟨x, p⟩ : Authenticated k.Carrier).digested h := by
    rw [Authenticated.digested, ← Hasher.entityId_eq_ok hid]
    exact fun s hs => List.mem_append_right _ (List.mem_cons_of_mem _ hs)
  refine (ht.retraces_of_foldl_eq_root (List.subset_append_left _ _) hi hpath hfold).imp_left ?_
  exact fun hr => ⟨_, hproof, hroot, hr.length_eq, hr.siblings_eq, fun i s s' => hr.side_eq_or⟩

end Kinds

/-- The proof of the odd leaf with its sibling, which is the leaf itself, on the other side. -/
def turnedProof : MembershipProof :=
  ⟨sample.root, (Merkle.path sample.levels 2).modifyHead fun s => { s with side := .left }⟩

/-- The proof of an odd leaf is also accepted with the first side turned, and with no other
sibling. -/
theorem Built.retraces_of_verifyAgainst_sample :
    let inputs := sampleAccounts.map Entity.input ++ nodeInputs .numeral sample.entries.keys
    let a : Authenticated EntityKind.account.Carrier := ⟨Payment.sample.payeeAccount, turnedProof⟩
    Built .numeral sample inputs ∧ a.verifyAgainst .numeral sample.root = true ∧
      turnedProof ≠ sampleProof.proof ∧
      (turnedProof.path.map ProofStep.sibling = sampleProof.proof.path.map ProofStep.sibling ∨
        Hasher.numeral.Breaks (inputs ++ a.digested .numeral)) := by
  intro inputs a
  have ht : Built .numeral sample inputs :=
    .putAll .empty (ofEntities_accounts .numeral sampleAccounts)
  have ha : a.verifyAgainst .numeral sample.root = true := by decide +kernel
  have hx : (Hasher.numeral.accountId Payment.sample.payeeAccount, a.entity) ∈
      sample.entries.items := by decide +kernel
  have hissued : sample.getProof (Hasher.numeral.accountId Payment.sample.payeeAccount) =
      .ok sampleProof.proof := by decide +kernel
  refine ⟨ht, ha, by decide +kernel, ?_⟩
  refine (ht.retraces_of_verifyAgainst hx turnedProof ha).imp_left ?_
  rintro ⟨issued, hproof, -, -, hsiblings, -⟩
  obtain rfl := Except.ok.inj (hissued.symm.trans hproof)
  exact hsiblings

end MerkleTree

end StakeLedger
