import StakeLedger.Proofs.Membership

/-!
# What a tree hands out

After any attempts to add entities to a tree, the last entity that was stored under an identifier
is handed out with a proof that is accepted against the root. Under an identifier where none was
stored there is nothing.

* `MerkleTree.Addition` is an attempt to add entities, `MerkleTree.attempts` is the tree after
  some of them. The history `MerkleTree.Addition.lastStored?` says what was stored last under an
  identifier; it does not look into a tree.
* `Merkle.length_path_le`: the paths in a tree of at most 2^d leaves have at most d steps.
* `MerkleTree.get_attempts` is the main statement.
-/

namespace StakeLedger

namespace Merkle

variable {h : Hasher} {leaves : List Identifier}

/-- A path is no longer than the number of times by which the leaves can be halved. -/
theorem length_path_le {d : Nat} (hlen : leaves.length ≤ 2 ^ d) (i : Nat) :
    (path (levels h leaves) i).length ≤ d := by
  induction leaves using levels.induct h generalizing d i with
  | case1 leaves hle =>
    rw [levels_of_length_le_one hle]
    exact Nat.zero_le d
  | case2 leaves hle ih =>
    cases d with
    | zero => exact absurd hlen hle
    | succ d =>
      have hparents : (parents h leaves).length ≤ 2 ^ d := by
        rw [length_parents]
        omega
      rw [path_levels_of_one_lt_length (Nat.not_le.mp hle), List.length_cons]
      exact Nat.succ_le_succ (ih hparents _)

end Merkle

namespace MerkleTree

variable {α : Type}

/-! ## Attempts to add -/

/-- An attempt to add entities to a tree. -/
inductive Addition (α : Type)
  /-- One entity by itself. -/
  | one (entity : α)
  /-- All the entities of a list. -/
  | all (entities : List α)

namespace Addition

/-- What is to be added. -/
def entities : Addition α → List α
  | one x => [x]
  | all xs => xs

variable [Entity α]

/-- Whether every entity has an identifier. -/
def isSound (h : Hasher) (a : Addition α) : Bool :=
  a.entities.all fun x => (h.entityId x).isOk

/-- What was stored, in order: the entities of the sound attempts. -/
def stored (h : Hasher) (history : List (Addition α)) : List α :=
  (history.filter (isSound h)).flatMap entities

/-- The entity that was stored last under an identifier. -/
def lastStored? (h : Hasher) (history : List (Addition α)) (id : Identifier) : Option α :=
  (stored h history).reverse.find? fun x => (h.entityId x).toOption = some id

theorem entityId_of_lastStored? {h : Hasher} {history : List (Addition α)} {id : Identifier} {x : α}
    (hx : lastStored? h history id = some x) : h.entityId x = .ok id := by
  rw [lastStored?] at hx
  exact toOption_eq_some_iff.mp (by simpa using List.find?_some hx)

end Addition

variable [Entity α] {h : Hasher} {t : MerkleTree α} {x : α} {xs : List α} {id : Identifier}

/-- The tree after an attempt. One that fails leaves the tree as it is. -/
def attempt (t : MerkleTree α) : Addition α → MerkleTree α
  | .one x =>
    match t.put x with
    | .ok (next, _) => next
    | .error _ => t
  | .all xs =>
    match t.putAll xs with
    | .ok next => next
    | .error _ => t

/-- The tree after attempts, one after the other. -/
def attempts (t : MerkleTree α) (history : List (Addition α)) : MerkleTree α :=
  history.foldl attempt t

theorem attempts_concat (t : MerkleTree α) (history : List (Addition α)) (a : Addition α) :
    t.attempts (history ++ [a]) = (t.attempts history).attempt a := by
  rw [attempts, attempts, List.foldl_append, List.foldl_cons, List.foldl_nil]

/-- To add one entity is to add the list of it. -/
theorem attempt_one (t : MerkleTree α) (x : α) : t.attempt (.one x) = t.attempt (.all [x]) := by
  cases hid : identify t.hasher x with
  | error e => simp only [attempt, put, putAll, identifyAll, hid, Except.map]
  | ok id =>
    obtain ⟨proof, hput⟩ := put_of_entityId (identify_eq_ok_iff.mp hid)
    simp only [attempt, hput, putAll, identifyAll, hid, Except.map]
    rfl

theorem attempt_eq (t : MerkleTree α) (a : Addition α) :
    t.attempt a = t.attempt (.all a.entities) := by
  cases a with
  | one x => exact attempt_one t x
  | all xs => rfl

/-- What a list is staged as: each entity with its identifier. -/
theorem exists_identifyAll (hxs : (xs.all fun x => (h.entityId x).isOk) = true) :
    ∃ staged, identifyAll h xs = .ok staged ∧ ∀ id,
      (staged.reverse.find? fun e => e.1 = id) =
        (xs.reverse.find? fun x => (h.entityId x).toOption = some id).map (id, ·) := by
  induction xs with
  | nil => exact ⟨[], rfl, fun _ => rfl⟩
  | cons x rest ih =>
    rw [List.all_cons, Bool.and_eq_true] at hxs
    obtain ⟨staged, hstaged, hfind⟩ := ih hxs.2
    cases hid : h.entityId x with
    | error e => rw [hid] at hxs; cases hxs.1
    | ok key =>
      refine ⟨(key, x) :: staged, ?_, fun id => ?_⟩
      · rw [identifyAll, identify_eq_ok_iff.mpr hid, hstaged]
        rfl
      · rw [List.reverse_cons, List.find?_append, hfind, List.reverse_cons, List.find?_append,
          Option.map_or]
        congr 1
        by_cases hk : key = id
        · simp [hid, hk, Except.toOption]
        · simp [hid, hk, Except.toOption]

theorem all_isOk_of_identifyAll {staged : List (Identifier × α)}
    (hxs : identifyAll h xs = .ok staged) : (xs.all fun x => (h.entityId x).isOk) = true := by
  induction xs generalizing staged with
  | nil => rfl
  | cons x rest ih =>
    unfold identifyAll at hxs
    split at hxs
    · cases hxs
    · next id hid =>
      obtain ⟨more, hrest, -⟩ := exists_of_map_eq_ok hxs
      rw [List.all_cons, ih hrest, identify_eq_ok_iff.mp hid]
      rfl

theorem hasher_attempt (t : MerkleTree α) (a : Addition α) : (t.attempt a).hasher = t.hasher := by
  rw [attempt_eq, attempt]
  split
  · next hput => exact hasher_of_putAll hput
  · rfl

/-- **What an attempt does to a look-up.** A sound one stores its entities, of which the last
under an identifier is found; another one changes nothing. -/
theorem find?_attempt (ht : t.hasher = h) (a : Addition α) (id : Identifier) :
    (t.attempt a).entries.find? id =
      if a.isSound h then
        ((a.entities.reverse.find? fun x => (h.entityId x).toOption = some id).map (id, ·)).or
          (t.entries.find? id)
      else t.entries.find? id := by
  subst ht
  rw [attempt_eq, attempt, Addition.isSound]
  split
  · next next hput =>
    obtain ⟨staged, hstaged, rfl⟩ := putAll_eq_ok hput
    have hsound := all_isOk_of_identifyAll hstaged
    obtain ⟨_, hstaged', hfind⟩ := exists_identifyAll hsound
    obtain rfl := Except.ok.inj (hstaged.symm.trans hstaged')
    rw [if_pos hsound, ← hfind]
    exact SortedBy.find?_insertAll
  · next e hput =>
    refine (if_neg fun hsound => ?_).symm
    obtain ⟨staged, hstaged, -⟩ := exists_identifyAll hsound
    rw [putAll, hstaged] at hput
    cases hput

theorem hasher_attempts (t : MerkleTree α) (history : List (Addition α)) :
    (t.attempts history).hasher = t.hasher := by
  induction history using List.reverseRecOn with
  | nil => rfl
  | append_singleton history a ih => rw [attempts_concat, hasher_attempt, ih]

/-- **A tree holds what was stored last** under each identifier. -/
theorem find?_attempts (h : Hasher) (history : List (Addition α)) (id : Identifier) :
    ((empty h).attempts history).entries.find? id =
      (Addition.lastStored? h history id).map (id, ·) := by
  induction history using List.reverseRecOn with
  | nil => rfl
  | append_singleton history a ih =>
    have hlast : Addition.lastStored? h (history ++ [a]) id =
        if a.isSound h then
          (a.entities.reverse.find? fun x => (h.entityId x).toOption = some id).or
            (Addition.lastStored? h history id)
        else Addition.lastStored? h history id := by
      rw [Addition.lastStored?, Addition.stored, List.filter_append, List.flatMap_append]
      split
      · next hsound =>
        rw [List.filter_cons_of_pos hsound, List.filter_nil, List.flatMap_singleton,
          List.reverse_append, List.find?_append]
        rfl
      · next hsound =>
        rw [List.filter_cons_of_neg hsound, List.filter_nil, List.flatMap_nil, List.append_nil]
        rfl
    rw [attempts_concat, find?_attempt (h := h) (hasher_attempts _ _), ih, hlast]
    by_cases hsound : a.isSound h = true
    · rw [if_pos hsound, if_pos hsound, Option.map_or]
    · rw [if_neg hsound, if_neg hsound]

/-! ## Proofs handed out -/

omit [Entity α] in
theorem getProof_of_notMem (hid : id ∉ t.entries.keys) :
    t.getProof id = .error (.notFound (.entity id)) := by
  rw [getProof, headD_levels, List.idxOf?_eq_none_iff.mpr hid]

/-- The proof from the place of a leaf is accepted, if the tree has at most 2^64 leaves. -/
theorem verifyAgainst_path (ht : t.hasher = h) (hsize : t.size ≤ 2 ^ 64)
    (hx : h.entityId x = .ok id) {i : Nat} (hi : t.entries.keys[i]? = some id) :
    (⟨x, t.root, Merkle.path t.levels i⟩ : Authenticated α).verifyAgainst h t.root = true := by
  subst ht
  have hlen : t.entries.keys.length ≤ 2 ^ MembershipProof.maxDepth := by
    rw [SortedBy.keys, List.length_map]
    exact hsize
  refine Authenticated.verifyAgainst_eq_true_iff.mpr ⟨rfl, ?_, id, hx, ?_⟩
  · rw [t.levels_eq]
    exact Merkle.length_path_le hlen i
  · rw [MembershipProof.computeRoot, root, t.levels_eq]
    exact (Merkle.foldl_path_eq_top hi).1

end MerkleTree

namespace SharedMerkleTree

variable {α : Type} [Entity α]

/-- The shared tree after attempts to add the entities of a list, one after the other. -/
def attempts (s : SharedMerkleTree α) (xs : List α) : SharedMerkleTree α :=
  xs.foldl (fun s x => (s.put x).1) s

theorem view_put (s : SharedMerkleTree α) (x : α) : (s.put x).1.view = s.view.attempt (.one x) := by
  rw [put, MerkleTree.attempt]
  cases s.view.put x <;> rfl

/-- What readers of a shared tree see is a tree after the same attempts. -/
theorem view_attempts (s : SharedMerkleTree α) (xs : List α) :
    (s.attempts xs).view = s.view.attempts (xs.map .one) := by
  induction xs generalizing s with
  | nil => rfl
  | cons x rest ih =>
    rw [attempts, List.foldl_cons, ← attempts, ih, view_put]
    rfl

end SharedMerkleTree

namespace MerkleTree

variable {α : Type} [Entity α]

/-- **What was stored last is handed out with a proof that is accepted,** and nothing else is
handed out. This is so after every history of attempts, also of a tree that is shared from some
point on, which then takes one entity at a time. -/
theorem get_attempts (h : Hasher) (history : List (Addition α)) (later : List α)
    (hsize : ((⟨(empty h).attempts history⟩ : SharedMerkleTree α).attempts later).view.size ≤ 2 ^ 64)
    (id : Identifier) :
    let t := ((⟨(empty h).attempts history⟩ : SharedMerkleTree α).attempts later).view
    (∀ x, Addition.lastStored? h (history ++ later.map .one) id = some x →
      t.contains id = true ∧ ∃ proof, t.get id = .ok ⟨x, proof⟩ ∧ t.getProof id = .ok proof ∧
        (⟨x, proof⟩ : Authenticated α).verifyAgainst h t.root = true) ∧
    (Addition.lastStored? h (history ++ later.map .one) id = none →
      t.contains id = false ∧ t.get id = .error (.notFound (.entity id)) ∧
        t.getProof id = .error (.notFound (.entity id))) := by
  intro t
  have ht : t = (empty h).attempts (history ++ later.map .one) := by
    rw [attempts, List.foldl_append]
    exact SharedMerkleTree.view_attempts _ later
  have hhasher : t.hasher = h := by
    rw [ht, hasher_attempts]
    rfl
  have hfind : t.entries.find? id =
      (Addition.lastStored? h (history ++ later.map .one) id).map (id, ·) := by
    rw [ht, find?_attempts]
  refine ⟨fun x hlast => ?_, fun hlast => ?_⟩
  · rw [hlast, Option.map_some] at hfind
    have hx : h.entityId x = .ok id := Addition.entityId_of_lastStored? hlast
    have hid : id ∈ t.entries.keys := SortedBy.mem_keys_iff.mpr (by rw [hfind, Option.isSome_some])
    obtain ⟨i, hi, hproof⟩ := getProof_of_mem hid
    refine ⟨?_, _, ?_, hproof, verifyAgainst_path hhasher hsize hx hi⟩
    · rw [contains, SortedBy.contains, hfind, Option.isSome_some]
    · simp only [get, hfind, hproof]
      rfl
  · rw [hlast, Option.map_none] at hfind
    have hid : id ∉ t.entries.keys := fun hid => by
      have hsome := SortedBy.mem_keys_iff.mp hid
      rw [hfind] at hsome
      cases hsome
    refine ⟨?_, ?_, getProof_of_notMem hid⟩
    · rw [contains, SortedBy.contains, hfind, Option.isSome_none]
    · simp only [get, hfind]

/-- Four accounts of which one comes twice, the last one after the tree was shared. -/
theorem get_attempts_sample :
    let history : List (Addition Account) :=
      [.all sampleAccounts, .one Payment.sample.payeeAccount]
    let later : List Account := [{ Payment.sample.payerAccount with balance := 8 }]
    let t := ((⟨(empty .numeral).attempts history⟩ : SharedMerkleTree Account).attempts later).view
    t.size = 4 ∧
      (∃ proof, t.get (Hasher.numeral.accountId Payment.sample.payeeAccount) =
          .ok ⟨Payment.sample.payeeAccount, proof⟩ ∧
        (⟨Payment.sample.payeeAccount, proof⟩ : Authenticated Account).verifyAgainst .numeral
          t.root = true) ∧
      t.get .zero = .error (.notFound (.entity .zero)) := by
  intro history later t
  have hsize : t.size = 4 := by decide +kernel
  have hle : t.size ≤ 2 ^ 64 := by rw [hsize]; decide
  have hstored : Addition.lastStored? .numeral (history ++ later.map .one)
      (Hasher.numeral.accountId Payment.sample.payeeAccount) = some Payment.sample.payeeAccount := by
    decide +kernel
  have habsent : Addition.lastStored? .numeral (history ++ later.map .one) .zero = none := by
    decide +kernel
  obtain ⟨-, proof, hget, -, hverify⟩ := (get_attempts .numeral history later hle _).1 _ hstored
  exact ⟨hsize, ⟨proof, hget, hverify⟩, ((get_attempts .numeral history later hle _).2 habsent).2.1⟩

end MerkleTree

end StakeLedger
