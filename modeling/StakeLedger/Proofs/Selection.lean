import Mathlib.Data.Finset.Card
import StakeLedger.Assignment

/-!
# How members are selected

A pool of identifiers loses what a target picks from it, target after target. What is picked, and
in which order, is said here without the loop that does it.

* `Assigner.Picks` says what a target picks from a pool, which `Assigner.pick?` finds
  (`pick?_eq_some_iff`): the greatest that is at most the target, or the greatest of all if there
  is none.
* `Assigner.Selects` says it of a list of picks: each of them is picked from what the picks before
  it have left. So they are distinct (`Selects.nodup`), and as many picks by the same targets from
  the same pool are the same (`Selects.unique`).
* `Assigner.eligible` are the accounts that may be selected, each once. `assign_eq_ok_iff` says
  which assignments are made of them, and `assign_outcome` when there is none.
-/

namespace StakeLedger

namespace Identifier

variable {x : Identifier}

/-- The last of an ascending list is the greatest. -/
theorem getLast?_eq_some_iff {items : List Identifier}
    (h : items.Pairwise fun x y => compare x y = .lt) :
    items.getLast? = some x ↔ x ∈ items ∧ ∀ y ∈ items, y.le x := by
  have hgreatest {z : Identifier} (hz : items.getLast? = some z) :
      z ∈ items ∧ ∀ y ∈ items, y.le z := by
    obtain ⟨before, rfl⟩ := List.getLast?_eq_some_iff.mp hz
    refine ⟨List.mem_append_right _ (List.mem_singleton_self z), fun y hy => ?_⟩
    rcases List.mem_append.mp hy with hy | hy
    · exact le_of_compare_lt ((List.pairwise_append.mp h).2.2 y hy z (List.mem_singleton_self z))
    · rw [List.mem_singleton.mp hy]
      exact le_refl z
  refine ⟨hgreatest, fun ⟨hx, hle⟩ => ?_⟩
  have hne : items.getLast? ≠ none := mt List.getLast?_eq_none_iff.mp (List.ne_nil_of_mem hx)
  obtain ⟨z, hz⟩ := Option.ne_none_iff_exists'.mp hne
  obtain ⟨hmem, hge⟩ := hgreatest hz
  rw [hz, le_antisymm (hle z hmem) (hge x hx)]

end Identifier

/-! ## Sets of identifiers -/

namespace SortedBy

variable {s : IdentifierSet} {x : Identifier}

theorem toFinset_erase (s : IdentifierSet) (x : Identifier) :
    (s.erase x).items.toFinset = s.items.toFinset.erase x := by
  ext y
  simp [erase, and_comm]

theorem card_toFinset (s : IdentifierSet) : s.items.toFinset.card = s.size := by
  have hnodup := s.nodup_keys
  rw [keys, List.map_id'] at hnodup
  exact List.toFinset_card_of_nodup hnodup

end SortedBy

namespace Assigner

/-! ## One pick -/

/-- What a target picks from a pool. -/
inductive Picks (target : Identifier) (pool : Finset Identifier) (x : Identifier) : Prop
  /-- It is the greatest of those that are at most the target. -/
  | below (mem : x ∈ pool) (le : x.le target) (greatest : ∀ y ∈ pool, y.le target → y.le x)
  /-- None is at most the target, and it is the greatest of all. -/
  | around (mem : x ∈ pool) (above : ∀ y ∈ pool, ¬ y.le target) (greatest : ∀ y ∈ pool, y.le x)

variable {target x y : Identifier} {pool smaller : Finset Identifier}

namespace Picks

theorem mem (h : Picks target pool x) : x ∈ pool := by
  cases h <;> assumption

theorem unique (hx : Picks target pool x) (hy : Picks target pool y) : x = y := by
  cases hx with
  | below hmem hle hgreatest =>
    cases hy with
    | below hmem' hle' hgreatest' =>
      exact Identifier.le_antisymm (hgreatest' x hmem hle) (hgreatest y hmem' hle')
    | around _ habove _ => exact absurd hle (habove x hmem)
  | around hmem habove hgreatest =>
    cases hy with
    | below hmem' hle' _ => exact absurd hle' (habove y hmem')
    | around hmem' _ hgreatest' =>
      exact Identifier.le_antisymm (hgreatest' x hmem) (hgreatest y hmem')

/-- What is picked is still picked when others are missing. -/
theorem of_subset (h : Picks target pool x) (hsub : smaller ⊆ pool) (hx : x ∈ smaller) :
    Picks target smaller x := by
  cases h with
  | below _ hle hgreatest => exact .below hx hle fun y hy => hgreatest y (hsub hy)
  | around _ habove hgreatest =>
    exact .around hx (fun y hy => habove y (hsub hy)) fun y hy => hgreatest y (hsub hy)

end Picks

/-- **What is found is what the target picks.** -/
theorem pick?_eq_some_iff {s : IdentifierSet} :
    pick? target s = some x ↔ Picks target s.items.toFinset x := by
  have hnone : (s.items.filter (·.le target)).getLast? = none ↔ ∀ y ∈ s.items, ¬ y.le target := by
    rw [List.getLast?_eq_none_iff, List.filter_eq_nil_iff]
  rw [pick?, Option.or_eq_some_iff, Identifier.getLast?_eq_some_iff (s.ascending.filter _), hnone,
    Identifier.getLast?_eq_some_iff s.ascending]
  constructor
  · rintro (⟨hx, hgreatest⟩ | ⟨habove, hx, hgreatest⟩)
    · obtain ⟨hmem, hle⟩ := List.mem_filter.mp hx
      refine .below (List.mem_toFinset.mpr hmem) hle fun y hy hyt => ?_
      exact hgreatest y (List.mem_filter.mpr ⟨List.mem_toFinset.mp hy, hyt⟩)
    · exact .around (List.mem_toFinset.mpr hx) (fun y hy => habove y (List.mem_toFinset.mp hy))
        fun y hy => hgreatest y (List.mem_toFinset.mp hy)
  · rintro (⟨hx, hle, hgreatest⟩ | ⟨hx, habove, hgreatest⟩)
    · refine .inl ⟨List.mem_filter.mpr ⟨List.mem_toFinset.mp hx, hle⟩, fun y hy => ?_⟩
      obtain ⟨hmem, hyt⟩ := List.mem_filter.mp hy
      exact hgreatest y (List.mem_toFinset.mpr hmem) hyt
    · exact .inr ⟨fun y hy => habove y (List.mem_toFinset.mpr hy), List.mem_toFinset.mp hx,
        fun y hy => hgreatest y (List.mem_toFinset.mpr hy)⟩

/-- From a pool that is not empty something is picked. -/
theorem exists_pick? (target : Identifier) {s : IdentifierSet} (hs : 0 < s.size) :
    ∃ x, pick? target s = some x := by
  have hne : s.items ≠ [] := List.ne_nil_of_length_pos hs
  obtain ⟨z, hz⟩ := Option.ne_none_iff_exists'.mp (mt List.getLast?_eq_none_iff.mp hne)
  rw [pick?, hz]
  cases (s.items.filter (·.le target)).getLast? with
  | none => exact ⟨z, rfl⟩
  | some x => exact ⟨x, rfl⟩

/-! ## Picks one after the other -/

/-- Each of the picks is what its target picks from what those before it have left. -/
def Selects (aim : Nat → Identifier) (pool : Finset Identifier) (picks : List Identifier) : Prop :=
  ∀ i (hi : i < picks.length), Picks (aim i) (pool \ (picks.take i).toFinset) picks[i]

variable {aim : Nat → Identifier} {picks picks' : List Identifier}

theorem selects_nil : Selects aim pool [] := nofun

theorem selects_cons : Selects aim pool (x :: picks) ↔
    Picks (aim 0) pool x ∧ Selects (fun i => aim (i + 1)) (pool.erase x) picks := by
  have hleft (i : Nat) : pool \ ((x :: picks).take (i + 1)).toFinset =
      pool.erase x \ (picks.take i).toFinset := by
    rw [List.take_succ_cons, List.toFinset_cons, Finset.sdiff_insert, Finset.erase_sdiff_comm]
  constructor
  · intro h
    refine ⟨by simpa using h 0 (Nat.zero_lt_succ _), fun i hi => ?_⟩
    exact hleft i ▸ h (i + 1) (Nat.succ_lt_succ hi)
  · rintro ⟨hx, hrest⟩ i hi
    cases i with
    | zero => simpa using hx
    | succ i => exact hleft i ▸ hrest i (Nat.lt_of_succ_lt_succ hi)

namespace Selects

theorem mem_of_mem (h : Selects aim pool picks) (hx : x ∈ picks) : x ∈ pool := by
  obtain ⟨i, hi, rfl⟩ := List.getElem_of_mem hx
  exact (Finset.mem_sdiff.mp (h i hi).mem).1

theorem nodup (h : Selects aim pool picks) : picks.Nodup := by
  induction picks generalizing aim pool with
  | nil => exact List.nodup_nil
  | cons x rest ih =>
    obtain ⟨-, hrest⟩ := selects_cons.mp h
    exact List.nodup_cons.mpr ⟨fun hx => by simpa using hrest.mem_of_mem hx, ih hrest⟩

theorem length_le (h : Selects aim pool picks) : picks.length ≤ pool.card := by
  rw [← List.toFinset_card_of_nodup h.nodup]
  exact Finset.card_le_card fun x hx => h.mem_of_mem (List.mem_toFinset.mp hx)

/-- **The targets and the pool determine the picks.** -/
theorem unique (h : Selects aim pool picks) (h' : Selects aim pool picks')
    (hlength : picks.length = picks'.length) : picks = picks' := by
  induction picks generalizing aim pool picks' with
  | nil => exact (List.length_eq_zero_iff.mp hlength.symm).symm
  | cons x rest ih =>
    cases picks' with
    | nil => cases hlength
    | cons x' rest' =>
      obtain ⟨hx, hrest⟩ := selects_cons.mp h
      obtain ⟨hx', hrest'⟩ := selects_cons.mp h'
      obtain rfl := hx.unique hx'
      rw [ih hrest hrest' (Nat.succ.inj hlength)]

end Selects

/-- **The loop makes its picks.** As long as the pool has enough for the remaining rounds, and
nothing that was chosen before, each round finds a pick and adds it. -/
theorem exists_select (a : Assigner) (seed : Identifier) (requested first : Nat)
    (chosen : Assignment) {rounds : Nat} {s : IdentifierSet} (hs : rounds ≤ s.size)
    (hfresh : ∀ x ∈ chosen.members, x ∉ s.items) :
    ∃ picks, a.select seed requested rounds first s chosen = .ok ⟨chosen.members ++ picks⟩ ∧
      picks.length = rounds ∧
      Selects (fun i => a.target seed (first + i)) s.items.toFinset picks := by
  induction rounds generalizing first s chosen with
  | zero => exact ⟨[], by rw [List.append_nil, select], rfl, selects_nil⟩
  | succ rounds ih =>
    obtain ⟨x, hx⟩ := exists_pick? (a.target seed first) (Nat.zero_lt_of_lt hs)
    have hpicks := pick?_eq_some_iff.mp hx
    have hmem := List.mem_toFinset.mp hpicks.mem
    have hadd : chosen.add x = .ok ⟨chosen.members ++ [x]⟩ := by
      have hnot : ¬ chosen.has x = true := fun hhas =>
        hfresh x (List.contains_iff_mem.mp hhas) hmem
      rw [Assignment.add, if_neg hnot]
    have hsize : rounds ≤ (s.erase x).size := by
      rw [← SortedBy.card_toFinset, SortedBy.toFinset_erase, Finset.card_erase_of_mem hpicks.mem,
        SortedBy.card_toFinset]
      omega
    have hleft : ∀ y ∈ chosen.members ++ [x], y ∉ (s.erase x).items := by
      intro y hy hys
      obtain ⟨hys, hne⟩ := List.mem_filter.mp hys
      rcases List.mem_append.mp hy with hy | hy
      · exact hfresh y hy hys
      · simp [List.mem_singleton.mp hy] at hne
    obtain ⟨picks, hselect, hlength, hselects⟩ :=
      ih (first + 1) ⟨chosen.members ++ [x]⟩ hsize hleft
    refine ⟨x :: picks, ?_, congrArg (· + 1) hlength, selects_cons.mpr ⟨hpicks, ?_⟩⟩
    · simp only [select, hx, hadd, hselect, List.append_assoc, List.singleton_append]
    · rw [SortedBy.toFinset_erase] at hselects
      simpa only [Nat.add_assoc, Nat.add_comm 1] using hselects

/-! ## Assignments -/

/-- The identifiers of the accounts with enough stake, each once. -/
def eligible (a : Assigner) (accounts : List Account) : Finset Identifier :=
  ((accounts.filter fun account => a.minStake ≤ account.stake).map Account.identifier).toFinset

variable {a : Assigner} {id : Identifier} {tag : String} {accounts : List Account} {count : Nat}

theorem mem_eligible : x ∈ a.eligible accounts ↔
    ∃ account ∈ accounts, account.identifier = x ∧ a.minStake ≤ account.stake := by
  simp [eligible, and_assoc, and_comm]

theorem toFinset_candidates (a : Assigner) (accounts : List Account) :
    (a.candidates accounts).items.toFinset = a.eligible accounts := by
  ext x
  have hkeys (s : IdentifierSet) : s.keys = s.items := List.map_id' _
  rw [List.mem_toFinset, ← hkeys, candidates, SortedBy.ofList, SortedBy.mem_keys_insertAll,
    eligible, List.mem_toFinset, List.map_id']
  simp [hkeys, Account.isStakeEligible]

theorem size_candidates (a : Assigner) (accounts : List Account) :
    (a.candidates accounts).size = (a.eligible accounts).card := by
  rw [← toFinset_candidates, SortedBy.card_toFinset]

theorem assign_zero :
    a.assign id tag accounts 0 = .error (.invalidArgument .emptyAssignment) :=
  if_pos rfl

theorem assign_of_card_lt (h : (a.eligible accounts).card < count) :
    a.assign id tag accounts count =
      .error (.insufficientCandidates count (a.eligible accounts).card) := by
  rw [← size_candidates] at h ⊢
  rw [assign, if_neg (Nat.ne_of_gt (Nat.zero_lt_of_lt h))]
  exact if_pos h

/-- **With enough candidates, the loop runs and its result is the assignment.** -/
theorem exists_assign (id : Identifier) (tag : String) (hpos : 0 < count)
    (hle : count ≤ (a.eligible accounts).card) :
    ∃ picks, a.select (a.seed id tag) count count 1 (a.candidates accounts) .empty = .ok ⟨picks⟩ ∧
      a.assign id tag accounts count = .ok ⟨picks⟩ ∧ picks.length = count ∧
      Selects (fun i => a.target (a.seed id tag) (i + 1)) (a.eligible accounts) picks := by
  rw [← size_candidates] at hle
  obtain ⟨picks, hselect, hlength, hselects⟩ :=
    a.exists_select (a.seed id tag) count 1 .empty hle nofun
  rw [toFinset_candidates] at hselects
  refine ⟨picks, hselect, ?_, hlength, by simpa only [Nat.add_comm 1] using hselects⟩
  rw [assign, if_neg (Nat.ne_of_gt hpos)]
  exact (if_neg (Nat.not_lt.mpr hle)).trans hselect

/-- **Which assignments are made.** -/
theorem assign_eq_ok_iff {assignment : Assignment} :
    a.assign id tag accounts count = .ok assignment ↔
      0 < count ∧ assignment.members.length = count ∧
        Selects (fun i => a.target (a.seed id tag) (i + 1)) (a.eligible accounts)
          assignment.members := by
  constructor
  · intro h
    rcases Nat.eq_zero_or_pos count with rfl | hpos
    · rw [assign_zero] at h
      cases h
    rcases Nat.lt_or_ge (a.eligible accounts).card count with hlt | hle
    · rw [assign_of_card_lt hlt] at h
      cases h
    obtain ⟨picks, -, hassign, hlength, hselects⟩ := exists_assign id tag hpos hle
    rw [hassign] at h
    cases h
    exact ⟨hpos, hlength, hselects⟩
  · rintro ⟨hpos, hlength, hselects⟩
    obtain ⟨picks, -, hassign, hlength', hselects'⟩ :=
      exists_assign id tag hpos (hlength ▸ hselects.length_le)
    rw [hassign, hselects'.unique hselects (hlength'.trans hlength.symm)]

/-- **What comes of an assignment.** It is an invalid argument to ask for none, and there are
insufficient candidates exactly if more are asked for than there are eligible identifiers. Otherwise
the loop ends well, with as many members as were asked for, all distinct and of accounts with
enough stake, and each member is what the target of its round picks from the eligible identifiers
that were not picked before. -/
theorem assign_outcome (a : Assigner) (id : Identifier) (tag : String) (accounts : List Account)
    (count : Nat) :
    let eligible := a.eligible accounts
    let aim (round : Nat) := a.hasher.digestBytes
      ((a.hasher.digestBytes (id.bytes ++ Utf8.ofString tag)).bytes ++ Bytes.bigEndian 8 round)
    ((∃ fault, a.assign id tag accounts count = .error (.invalidArgument fault)) ↔ count = 0) ∧
      (∀ requested available, a.assign id tag accounts count =
          .error (.insufficientCandidates requested available) ↔
        eligible.card < count ∧ requested = count ∧ available = eligible.card) ∧
      (0 < count → count ≤ eligible.card → ∃ assignment : Assignment,
        a.select (a.seed id tag) count count 1 (a.candidates accounts) .empty = .ok assignment ∧
          a.assign id tag accounts count = .ok assignment ∧
          assignment.members.length = count ∧ assignment.members.Nodup ∧
          (∀ x ∈ assignment.members, ∃ account ∈ accounts,
            account.identifier = x ∧ a.minStake ≤ account.stake) ∧
          ∀ i (hi : i < assignment.members.length),
            Picks (aim (i + 1)) (eligible \ (assignment.members.take i).toFinset)
              assignment.members[i]) := by
  intro eligible aim
  rcases Nat.eq_zero_or_pos count with rfl | hpos
  · rw [assign_zero]
    exact ⟨iff_of_true ⟨_, rfl⟩ rfl, fun _ _ => by simp, fun h => absurd h (Nat.lt_irrefl 0)⟩
  rcases Nat.lt_or_ge eligible.card count with hlt | hle
  · rw [assign_of_card_lt hlt]
    refine ⟨by simp [Nat.ne_of_gt hpos], fun _ _ => ?_, fun _ h => absurd hlt (Nat.not_lt.mpr h)⟩
    simp [hlt, eligible, eq_comm]
  obtain ⟨picks, hselect, hassign, hlength, hselects⟩ := exists_assign id tag hpos hle
  rw [hassign]
  refine ⟨by simp [Nat.ne_of_gt hpos], fun _ _ => by simp [Nat.not_lt.mpr hle], fun _ _ => ?_⟩
  exact ⟨⟨picks⟩, hselect, rfl, hlength, hselects.nodup,
    fun x hx => mem_eligible.mp (hselects.mem_of_mem hx), hselects⟩

/-- The identifier that is a small number. -/
def numeral (n : UInt8) : Identifier := ⟨List.replicate 31 0 ++ [n], by simp⟩

/-- An assigner whose target of a round is the number of the round. -/
def counting : Assigner :=
  ⟨⟨"last byte", fun bytes => numeral (bytes.getLastD 0)⟩, 10⟩

/-- Four accounts, three of them with enough stake. -/
def electorate : List Account :=
  [(7, 10), (1, 9), (2, 30), (5, 20)].map fun (n, stake) =>
    ⟨numeral n, stake, ⟨.ed25519, []⟩, .zero, 0⟩

/-- All three candidates are selected: first the greatest, as the first target is below all of
them, then the one that the second target meets, then the one that is left. -/
theorem assign_outcome_electorate :
    0 < 3 ∧ 3 ≤ (counting.eligible electorate).card ∧
      counting.assign .zero "tag" electorate 3 = .ok ⟨[numeral 7, numeral 2, numeral 5]⟩ ∧
      Picks (numeral 2) (counting.eligible electorate \ {numeral 7}) (numeral 2) := by
  have hcard : 3 ≤ (counting.eligible electorate).card := by decide +kernel
  have hmembers : counting.assign .zero "tag" electorate 3 =
      .ok ⟨[numeral 7, numeral 2, numeral 5]⟩ := by decide +kernel
  obtain ⟨-, -, hok⟩ := assign_outcome counting .zero "tag" electorate 3
  obtain ⟨assignment, -, hassign, -, -, -, hpicks⟩ := hok (by decide) hcard
  rw [hmembers] at hassign
  cases hassign
  exact ⟨by decide, hcard, hmembers, hpicks 1 (by decide)⟩

end Assigner

end StakeLedger
