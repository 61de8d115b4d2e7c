import Mathlib.Data.List.Induction
import StakeLedger.Merkle.Tree

/-!
# Paths in a Merkle tree

Which strings are digested for the inner nodes of a tree and along a path, and where a path can
start that leads to the root.

* `Merkle.nodeInputs` are the strings digested for the nodes above given leaves, and
  `Merkle.pathInputs` those digested on the way along a path.
* `Hasher.Breaks` says that a hash function fails on some strings: it gives two of them the same
  digest, or one of them the digest zero, which is the root of the empty tree.
* `Merkle.foldl_path_eq_top`: the path from a leaf leads to the root.
* `Merkle.Recorded.mem_of_foldl_eq_top`: if a path leads to the root from the digest of a string
  that is no pair of nodes, it starts at a leaf, or the hash function breaks. Nothing is assumed
  of the path.
-/

namespace StakeLedger

namespace Hasher

/-- What is digested for an inner node of a tree. -/
def pairInput (left right : Identifier) : Bytes :=
  left.bytes ++ right.bytes

theorem digestPair_eq (h : Hasher) (left right : Identifier) :
    h.digestPair left right = h.digestBytes (pairInput left right) := rfl

@[simp]
theorem length_pairInput (left right : Identifier) : (pairInput left right).length = 64 := by
  rw [pairInput, List.length_append, left.length_eq, right.length_eq]

theorem pairInput_inj {a b c d : Identifier} :
    pairInput a b = pairInput c d ↔ a = c ∧ b = d := by
  constructor
  · intro h
    obtain ⟨hac, hbd⟩ := List.append_inj h (by rw [a.length_eq, c.length_eq])
    exact ⟨Identifier.ext_bytes hac, Identifier.ext_bytes hbd⟩
  · rintro ⟨rfl, rfl⟩
    rfl

/-- Whether the hash function gives two of the strings the same digest, or one of them the
digest zero. -/
def Breaks (h : Hasher) (inputs : List Bytes) : Prop :=
  (∃ s ∈ inputs, ∃ t ∈ inputs, s ≠ t ∧ h.digestBytes s = h.digestBytes t) ∨
    ∃ s ∈ inputs, h.digestBytes s = .zero

variable {h : Hasher} {inputs : List Bytes} {s t : Bytes}

theorem Breaks.mono {more : List Bytes} (hsub : inputs ⊆ more) (hb : h.Breaks inputs) :
    h.Breaks more := by
  rcases hb with ⟨s, hs, t, ht, hne, heq⟩ | ⟨s, hs, hzero⟩
  · exact .inl ⟨s, hsub hs, t, hsub ht, hne, heq⟩
  · exact .inr ⟨s, hsub hs, hzero⟩

theorem eq_or_breaks (hs : s ∈ inputs) (ht : t ∈ inputs)
    (heq : h.digestBytes s = h.digestBytes t) : s = t ∨ h.Breaks inputs := by
  by_cases hne : s = t
  · exact .inl hne
  · exact .inr (.inl ⟨s, hs, t, ht, hne, heq⟩)

end Hasher

namespace ProofStep

/-- What is digested at a step of a path. -/
def input (node : Identifier) (step : ProofStep) : Bytes :=
  match step.side with
  | .right => Hasher.pairInput node step.sibling
  | .left => Hasher.pairInput step.sibling node

theorem apply_eq (h : Hasher) (node : Identifier) (step : ProofStep) :
    step.apply h node = h.digestBytes (step.input node) := by
  rw [apply, input]
  cases step.side <;> rfl

/-- A step digests a given pair from either of its sides. -/
theorem input_eq_pairInput_iff {node a b : Identifier} {step : ProofStep} :
    step.input node = Hasher.pairInput a b ↔
      (node = a ∧ step = ⟨b, .right⟩) ∨ (node = b ∧ step = ⟨a, .left⟩) := by
  obtain ⟨sibling, side⟩ := step
  cases side with
  | left => simp [input, Hasher.pairInput_inj, and_comm]
  | right => simp [input, Hasher.pairInput_inj]

theorem length_input (node : Identifier) (step : ProofStep) : (step.input node).length = 64 := by
  obtain ⟨sibling, side⟩ := step
  cases side <;> exact Hasher.length_pairInput _ _

end ProofStep

namespace Merkle

open Hasher (pairInput)

/-! ## The digested strings -/

/-- What is digested for the level above a level. -/
def parentInputs : List Identifier → List Bytes
  | [] => []
  | [last] => [pairInput last last]
  | left :: right :: rest => pairInput left right :: parentInputs rest

/-- What is digested for all the levels above the given leaves. -/
def nodeInputs (h : Hasher) (leaves : List Identifier) : List Bytes :=
  if leaves.length ≤ 1 then [] else parentInputs leaves ++ nodeInputs h (parents h leaves)
termination_by leaves.length
decreasing_by rw [length_parents]; omega

/-- What is digested along a path. -/
def pathInputs (h : Hasher) : Identifier → List ProofStep → List Bytes
  | _, [] => []
  | node, step :: rest => step.input node :: pathInputs h (step.apply h node) rest

variable {h : Hasher} {leaves : List Identifier}

theorem parents_eq (h : Hasher) (level : List Identifier) :
    parents h level = (parentInputs level).map h.digestBytes := by
  fun_induction parentInputs level with
  | case1 => rfl
  | case2 last => rfl
  | case3 left right rest ih => rw [parents, ih, List.map_cons, Hasher.digestPair_eq]

theorem levels_of_length_le_one (hlen : leaves.length ≤ 1) : levels h leaves = [leaves] := by
  rw [levels, if_pos hlen]

theorem levels_of_one_lt_length (hlen : 1 < leaves.length) :
    levels h leaves = leaves :: levels h (parents h leaves) := by
  rw [levels, if_neg (Nat.not_le.mpr hlen)]

theorem exists_levels_eq_cons (h : Hasher) (leaves : List Identifier) :
    ∃ rest, levels h leaves = leaves :: rest := by
  rcases Nat.lt_or_ge 1 leaves.length with hlen | hlen
  · exact ⟨_, levels_of_one_lt_length hlen⟩
  · exact ⟨_, levels_of_length_le_one hlen⟩

theorem nodeInputs_of_length_le_one (hlen : leaves.length ≤ 1) : nodeInputs h leaves = [] := by
  rw [nodeInputs, if_pos hlen]

theorem nodeInputs_of_one_lt_length (hlen : 1 < leaves.length) :
    nodeInputs h leaves = parentInputs leaves ++ nodeInputs h (parents h leaves) := by
  rw [nodeInputs, if_neg (Nat.not_le.mpr hlen)]

theorem top_levels_of_one_lt_length (hlen : 1 < leaves.length) :
    top (levels h leaves) = top (levels h (parents h leaves)) := by
  obtain ⟨rest, hrest⟩ := exists_levels_eq_cons h (parents h leaves)
  rw [levels_of_one_lt_length hlen, hrest, top, top, List.getLast?_cons_cons]

theorem path_levels_of_one_lt_length (hlen : 1 < leaves.length) (i : Nat) :
    path (levels h leaves) i = step leaves i :: path (levels h (parents h leaves)) (i / 2) := by
  obtain ⟨rest, hrest⟩ := exists_levels_eq_cons h (parents h leaves)
  rw [levels_of_one_lt_length hlen, hrest, path]

theorem pathInputs_concat (node : Identifier) (path : List ProofStep) (step : ProofStep) :
    pathInputs h node (path ++ [step]) =
      pathInputs h node path ++ [step.input (path.foldl (ProofStep.apply h) node)] := by
  induction path generalizing node with
  | nil => rfl
  | cons first rest ih =>
    rw [List.cons_append, pathInputs, ih, pathInputs, List.foldl_cons, List.cons_append]

/-- A path that starts at a digest ends at one. -/
theorem exists_digest_eq_foldl (s : Bytes) (path : List ProofStep) :
    ∃ t ∈ s :: pathInputs h (h.digestBytes s) path,
      h.digestBytes t = path.foldl (ProofStep.apply h) (h.digestBytes s) := by
  induction path generalizing s with
  | nil => exact ⟨s, List.mem_singleton_self s, rfl⟩
  | cons step rest ih =>
    obtain ⟨t, ht, heq⟩ := ih (step.input (h.digestBytes s))
    rw [← ProofStep.apply_eq] at ht heq
    exact ⟨t, List.mem_cons_of_mem _ ht, heq⟩

theorem exists_of_mem_parentInputs {level : List Identifier} {s : Bytes}
    (hs : s ∈ parentInputs level) : ∃ a ∈ level, ∃ b ∈ level, s = pairInput a b := by
  fun_induction parentInputs level with
  | case1 => cases hs
  | case2 last => simpa using hs
  | case3 left right rest ih =>
    rcases List.mem_cons.mp hs with rfl | hs
    · exact ⟨left, by simp, right, by simp, rfl⟩
    · obtain ⟨a, ha, b, hb, rfl⟩ := ih hs
      exact ⟨a, by simp [ha], b, by simp [hb], rfl⟩

/-! ## The path from a leaf -/

theorem step_cons_cons (left right : Identifier) (rest : List Identifier) (i : Nat) :
    step (left :: right :: rest) (i + 2) = step rest i := by
  have hmod : (i + 2) % 2 = i % 2 := Nat.add_mod_right i 2
  rw [step, step, hmod]
  split
  · rfl
  · next hodd =>
    obtain ⟨j, rfl⟩ : ∃ j, i = j + 1 := Nat.exists_eq_succ_of_ne_zero (by omega)
    rfl

/-- The step at a node digests the string of its parent. -/
theorem getElem?_parentInputs {level : List Identifier} {i : Nat} {x : Identifier}
    (hx : level[i]? = some x) : (parentInputs level)[i / 2]? = some ((step level i).input x) := by
  fun_induction parentInputs level generalizing i with
  | case1 => simp at hx
  | case2 last =>
    obtain ⟨rfl, rfl⟩ : i = 0 ∧ last = x := by
      cases i with
      | zero => simpa using hx
      | succ i => simp at hx
    rfl
  | case3 left right rest ih =>
    match i with
    | 0 =>
      obtain rfl : left = x := by simpa using hx
      rfl
    | 1 =>
      obtain rfl : right = x := by simpa using hx
      rfl
    | i + 2 =>
      rw [step_cons_cons, show (i + 2) / 2 = i / 2 + 1 by omega]
      exact ih hx

/-- **The path from a leaf leads to the root,** and nothing is digested on it that is not digested
for the tree. -/
theorem foldl_path_eq_top {i : Nat} {x : Identifier} (hx : leaves[i]? = some x) :
    (path (levels h leaves) i).foldl (ProofStep.apply h) x = top (levels h leaves) ∧
      pathInputs h x (path (levels h leaves) i) ⊆ nodeInputs h leaves := by
  induction leaves using levels.induct h generalizing i x with
  | case1 leaves hlen =>
    obtain ⟨hi, rfl⟩ := List.getElem?_eq_some_iff.mp hx
    obtain ⟨y, rfl⟩ := List.length_eq_one_iff.mp (show leaves.length = 1 by omega)
    obtain rfl : i = 0 := by simpa using hi
    rw [levels_of_length_le_one hlen]
    exact ⟨rfl, List.nil_subset _⟩
  | case2 leaves hlen ih =>
    have hlt := Nat.not_le.mp hlen
    have hparent : (parents h leaves)[i / 2]? = some ((step leaves i).apply h x) := by
      rw [parents_eq, List.getElem?_map, getElem?_parentInputs hx, ProofStep.apply_eq]
      rfl
    obtain ⟨hfold, hsub⟩ := ih hparent
    rw [path_levels_of_one_lt_length hlt, top_levels_of_one_lt_length hlt,
      nodeInputs_of_one_lt_length hlt]
    refine ⟨hfold, List.cons_subset.mpr ⟨?_, fun s hs => List.mem_append_right _ (hsub hs)⟩⟩
    exact List.mem_append_left _ (List.mem_of_getElem? (getElem?_parentInputs hx))

/-! ## Nodes -/

/-- Whether an identifier is that of a node of the tree over the given leaves. -/
def IsNode (h : Hasher) (leaves : List Identifier) (node : Identifier) : Prop :=
  node ∈ leaves ∨ ∃ s ∈ nodeInputs h leaves, h.digestBytes s = node

/-- A node above the leaves is the digest of a pair of nodes. -/
theorem IsNode.exists_of_parents (hlen : 1 < leaves.length) {node : Identifier}
    (hnode : IsNode h (parents h leaves) node) :
    ∃ s ∈ nodeInputs h leaves, h.digestBytes s = node := by
  rw [nodeInputs_of_one_lt_length hlen]
  rcases hnode with hnode | ⟨s, hs, rfl⟩
  · rw [parents_eq, List.mem_map] at hnode
    obtain ⟨s, hs, rfl⟩ := hnode
    exact ⟨s, List.mem_append_left _ hs, rfl⟩
  · exact ⟨s, List.mem_append_right _ hs, rfl⟩

theorem IsNode.of_parents (hlen : 1 < leaves.length) {node : Identifier}
    (hnode : IsNode h (parents h leaves) node) : IsNode h leaves node :=
  .inr (hnode.exists_of_parents hlen)

/-- The root of a tree that is not empty is a node. -/
theorem isNode_top (hne : leaves ≠ []) : IsNode h leaves (top (levels h leaves)) := by
  induction leaves using levels.induct h with
  | case1 leaves hlen =>
    obtain ⟨x, rfl⟩ := List.length_eq_one_iff.mp
      (Nat.le_antisymm hlen (List.length_pos_iff.mpr hne))
    rw [levels_of_length_le_one hlen]
    exact .inl (List.mem_singleton_self x)
  | case2 leaves hlen ih =>
    have hlt := Nat.not_le.mp hlen
    have hparents : parents h leaves ≠ [] := by
      rw [← List.length_pos_iff, length_parents]
      omega
    rw [top_levels_of_one_lt_length hlt]
    exact .of_parents hlt (ih hparents)

/-- **A step down.** What is digested for an inner node is a pair of nodes. -/
theorem exists_of_mem_nodeInputs {s : Bytes} (hs : s ∈ nodeInputs h leaves) :
    ∃ a b, IsNode h leaves a ∧ IsNode h leaves b ∧ s = pairInput a b := by
  induction leaves using levels.induct h with
  | case1 leaves hlen =>
    rw [nodeInputs_of_length_le_one hlen] at hs
    cases hs
  | case2 leaves hlen ih =>
    have hlt := Nat.not_le.mp hlen
    rw [nodeInputs_of_one_lt_length hlt] at hs
    rcases List.mem_append.mp hs with hs | hs
    · obtain ⟨a, ha, b, hb, rfl⟩ := exists_of_mem_parentInputs hs
      exact ⟨a, b, .inl ha, .inl hb, rfl⟩
    · obtain ⟨a, b, ha, hb, rfl⟩ := ih hs
      exact ⟨a, b, .of_parents hlt ha, .of_parents hlt hb, rfl⟩

theorem length_of_mem_nodeInputs {s : Bytes} (hs : s ∈ nodeInputs h leaves) : s.length = 64 := by
  obtain ⟨a, b, -, -, rfl⟩ := exists_of_mem_nodeInputs hs
  exact Hasher.length_pairInput a b

/-! ## Paths to the root -/

/-- Whether the given strings include all that is digested for a tree: the strings of its inner
nodes and, for each leaf, one that is no pair of nodes. -/
structure Recorded (h : Hasher) (leaves : List Identifier) (inputs : List Bytes) : Prop where
  leaf : ∀ id ∈ leaves, ∃ s ∈ inputs, s.length ≠ 64 ∧ h.digestBytes s = id
  node : nodeInputs h leaves ⊆ inputs

variable {inputs : List Bytes} {s : Bytes} {path : List ProofStep}

namespace Recorded

/-- A string whose digest is a node is the string of this node. -/
theorem mem_of_isNode (ht : Recorded h leaves inputs) (hs : s ∈ inputs)
    (hnode : IsNode h leaves (h.digestBytes s)) :
    (s.length ≠ 64 ∧ h.digestBytes s ∈ leaves) ∨ s ∈ nodeInputs h leaves ∨ h.Breaks inputs := by
  rcases hnode with hleaf | ⟨t, ht', heq⟩
  · obtain ⟨t, ht', hlen, heq⟩ := ht.leaf _ hleaf
    rcases Hasher.eq_or_breaks ht' hs heq with rfl | hbreaks
    · exact .inl ⟨hlen, hleaf⟩
    · exact .inr (.inr hbreaks)
  · rcases Hasher.eq_or_breaks (ht.node ht') hs heq with rfl | hbreaks
    · exact .inr (.inl ht')
    · exact .inr (.inr hbreaks)

/-- A path that leads to a node starts at one, and what is digested on it are inner nodes. -/
theorem isNode_of_isNode_foldl (ht : Recorded h leaves inputs) {node : Identifier}
    (hpath : pathInputs h node path ⊆ inputs)
    (hnode : IsNode h leaves (path.foldl (ProofStep.apply h) node)) :
    (IsNode h leaves node ∧ pathInputs h node path ⊆ nodeInputs h leaves) ∨ h.Breaks inputs := by
  -- from the root downwards
  induction path using List.reverseRecOn with
  | nil => exact .inl ⟨hnode, List.nil_subset _⟩
  | append_singleton path step ih =>
    rw [pathInputs_concat] at hpath ⊢
    rw [List.foldl_append, List.foldl_cons, List.foldl_nil, ProofStep.apply_eq] at hnode
    have hstep := hpath (List.mem_append_right _ (List.mem_singleton_self _))
    replace ih := ih fun s hs => hpath (List.mem_append_left _ hs)
    rcases ht.mem_of_isNode hstep hnode with ⟨hlen, -⟩ | hmem | hbreaks
    · exact absurd (ProofStep.length_input _ step) hlen
    · obtain ⟨a, b, ha, hb, heq⟩ := exists_of_mem_nodeInputs hmem
      have hprevious : IsNode h leaves (path.foldl (ProofStep.apply h) node) := by
        rcases ProofStep.input_eq_pairInput_iff.mp heq with ⟨rfl, -⟩ | ⟨rfl, -⟩
        · exact ha
        · exact hb
      refine (ih hprevious).imp_left fun ⟨hstart, hsub⟩ => ⟨hstart, ?_⟩
      exact List.append_subset.mpr ⟨hsub, List.cons_subset.mpr ⟨hmem, List.nil_subset _⟩⟩
    · exact .inr hbreaks

/-- **A path to the root starts at a leaf,** if it does not start at a pair of nodes, or the hash
function breaks. -/
theorem mem_of_foldl_eq_top (ht : Recorded h leaves inputs) (hs : s ∈ inputs)
    (hlen : s.length ≠ 64) (hpath : pathInputs h (h.digestBytes s) path ⊆ inputs)
    (htop : path.foldl (ProofStep.apply h) (h.digestBytes s) = top (levels h leaves)) :
    h.digestBytes s ∈ leaves ∨ h.Breaks inputs := by
  by_cases hne : leaves = []
  · obtain ⟨t, ht', heq⟩ := exists_digest_eq_foldl (h := h) s path
    have hzero : top (levels h leaves) = .zero := by
      rw [levels_of_length_le_one (by simp [hne]), hne]
      rfl
    exact .inr (.inr ⟨t, List.cons_subset.mpr ⟨hs, hpath⟩ ht', heq.trans (htop.trans hzero)⟩)
  · have hnode := htop ▸ isNode_top (h := h) hne
    rcases ht.isNode_of_isNode_foldl hpath hnode with ⟨hnode, -⟩ | hbreaks
    · rcases ht.mem_of_isNode hs hnode with ⟨-, hleaf⟩ | hmem | hbreaks
      · exact .inl hleaf
      · exact absurd (length_of_mem_nodeInputs hmem) hlen
      · exact .inr hbreaks
    · exact .inr hbreaks

end Recorded

end Merkle

end StakeLedger
