import StakeLedger.Proofs.Selection

/-!
# How assignments compare

Assignments to one entity under one tag have the same targets, whatever accounts they are made of
and however many of them are asked for.

* Who is eligible and was not picked does not matter: the same picks come out of any smaller pool
  that still has them (`Selects.of_subset`). So an assignment depends on nothing of the accounts
  but which of them are eligible, and only on the selected ones among these (`assign_unaffected`).
* The first picks are those of a shorter assignment (`Selects.take`), and as many picks as there
  are candidates are all of them (`Selects.perm`). So assignments grow by appending
  (`assign_extends`).
-/

namespace StakeLedger

namespace Assigner

variable {aim : Nat → Identifier} {pool smaller : Finset Identifier} {picks : List Identifier}

namespace Selects

/-- **What is never picked does not matter.** -/
theorem of_subset (h : Selects aim pool picks) (hsub : smaller ⊆ pool)
    (hpicks : ∀ x ∈ picks, x ∈ smaller) : Selects aim smaller picks := by
  intro i hi
  refine (h i hi).of_subset (Finset.sdiff_subset_sdiff hsub (Finset.Subset.refl _)) ?_
  -- a pick is not among those before it
  exact Finset.mem_sdiff.mpr
    ⟨hpicks _ (List.getElem_mem hi), (Finset.mem_sdiff.mp (h i hi).mem).2⟩

/-- **The first picks are picked in the same way.** -/
theorem take (h : Selects aim pool picks) (n : Nat) : Selects aim pool (picks.take n) := by
  intro i hi
  have hlt : i < n ∧ i < picks.length := by
    rw [List.length_take] at hi
    exact Nat.lt_min.mp hi
  rw [List.take_take, Nat.min_eq_left (Nat.le_of_lt hlt.1), List.getElem_take]
  exact h i hlt.2

/-- **As many picks as there are candidates are all of them.** -/
theorem perm (h : Selects aim pool picks) (hlength : picks.length = pool.card) :
    picks.Perm pool.toList := by
  have hcard : pool.card ≤ picks.toFinset.card := by
    rw [List.toFinset_card_of_nodup h.nodup, hlength]
  have hall : picks.toFinset = pool :=
    Finset.eq_of_subset_of_card_le (fun x hx => h.mem_of_mem (List.mem_toFinset.mp hx)) hcard
  refine (List.perm_ext_iff_of_nodup h.nodup pool.nodup_toList).mpr fun x => ?_
  rw [Finset.mem_toList, ← hall, List.mem_toFinset]

end Selects

variable {a : Assigner} {id : Identifier} {tag : String} {accounts accounts' : List Account}
  {count n : Nat}

/-! ## Fewer candidates -/

/-- Which identifiers are eligible decides everything. -/
theorem assign_eq_of_eligible_eq (h : a.eligible accounts = a.eligible accounts') :
    a.assign id tag accounts count = a.assign id tag accounts' count := by
  have hcandidates : a.candidates accounts = a.candidates accounts' := by
    refine SortedBy.ext_mem fun x => ?_
    rw [← List.mem_toFinset, ← List.mem_toFinset, toFinset_candidates, toFinset_candidates, h]
  rw [assign, assign, hcandidates]

/-- **Who is not selected does not matter.** An assignment is made in the same way of fewer
candidates, if its members are among them. What is equal of two lists of accounts is which of them
are eligible, then their assignments are equal too, and fail in the same way: the other accounts,
the order, and what else the accounts hold, have no effect at all. -/
theorem assign_unaffected (a : Assigner) (id : Identifier) (tag : String) (count : Nat)
    (accounts accounts' : List Account) :
    (∀ assignment, a.assign id tag accounts count = .ok assignment →
        (∀ x ∈ assignment.members, x ∈ a.eligible accounts') →
        a.eligible accounts' ⊆ a.eligible accounts →
          a.assign id tag accounts' count = .ok assignment) ∧
      (a.eligible accounts = a.eligible accounts' →
        a.assign id tag accounts count = a.assign id tag accounts' count) := by
  refine ⟨fun assignment h hmembers hsub => ?_, assign_eq_of_eligible_eq⟩
  obtain ⟨hpos, hlength, hselects⟩ := assign_eq_ok_iff.mp h
  exact assign_eq_ok_iff.mpr ⟨hpos, hlength, hselects.of_subset hsub hmembers⟩

/-- Without two of the accounts, one of them never picked and one that has too little stake, the
first two members are the same. -/
theorem assign_unaffected_electorate :
    let others := electorate.filter fun account => account.stake ≠ 20 ∧ account.stake ≠ 9
    let assignment : Assignment := ⟨[numeral 7, numeral 2]⟩
    counting.assign .zero "tag" electorate 2 = .ok assignment ∧
      (∀ x ∈ assignment.members, x ∈ counting.eligible others) ∧
      counting.eligible others ⊆ counting.eligible electorate ∧
      counting.assign .zero "tag" others 2 = .ok assignment := by
  intro others assignment
  have hassign : counting.assign .zero "tag" electorate 2 = .ok assignment := by decide +kernel
  have hmembers : ∀ x ∈ assignment.members, x ∈ counting.eligible others := by decide +kernel
  have hsub : counting.eligible others ⊆ counting.eligible electorate := by decide +kernel
  exact ⟨hassign, hmembers, hsub, (assign_unaffected counting .zero "tag" 2 electorate others).1
    assignment hassign hmembers hsub⟩

/-! ## More members -/

theorem assign_take {m : Nat} {assignment : Assignment} (hpos : 0 < m) (hle : m ≤ n)
    (h : a.assign id tag accounts n = .ok assignment) :
    a.assign id tag accounts m = .ok ⟨assignment.members.take m⟩ := by
  obtain ⟨-, hlength, hselects⟩ := assign_eq_ok_iff.mp h
  refine assign_eq_ok_iff.mpr ⟨hpos, ?_, hselects.take m⟩
  rw [List.length_take, hlength, Nat.min_eq_left hle]

/-- **Assignments grow by appending.** As long as there are enough candidates, a shorter assignment
consists of the first members of a longer one, and the longest is a permutation of all candidates.
The proposer is the first member of every assignment under the tag of proposers. -/
theorem assign_extends (a : Assigner) (id : Identifier) (tag : String) (accounts : List Account) :
    (∀ m n, 0 < m → m ≤ n → n ≤ (a.eligible accounts).card → ∃ assignment : Assignment,
        a.assign id tag accounts n = .ok assignment ∧ assignment.members.length = n ∧
          a.assign id tag accounts m = .ok ⟨assignment.members.take m⟩) ∧
      (0 < (a.eligible accounts).card → ∃ assignment : Assignment,
        a.assign id tag accounts (a.eligible accounts).card = .ok assignment ∧
          assignment.members.Perm (a.eligible accounts).toList) ∧
      (∀ n, 0 < n → n ≤ (a.eligible accounts).card → ∃ proposer others,
        a.assignProposer id accounts = .ok proposer ∧
          a.assign id proposerTag accounts n = .ok ⟨proposer :: others⟩) := by
  refine ⟨fun m n hpos hle hn => ?front, fun hpos => ?all, fun n hpos hn => ?proposer⟩
  case front =>
    obtain ⟨picks, -, hassign, hlength, -⟩ :=
      exists_assign id tag (Nat.lt_of_lt_of_le hpos hle) hn
    exact ⟨⟨picks⟩, hassign, hlength, assign_take hpos hle hassign⟩
  case all =>
    obtain ⟨picks, -, hassign, hlength, hselects⟩ := exists_assign id tag hpos (Nat.le_refl _)
    exact ⟨⟨picks⟩, hassign, hselects.perm hlength⟩
  case proposer =>
    obtain ⟨picks, -, hassign, hlength, -⟩ := exists_assign id proposerTag hpos hn
    obtain ⟨proposer, others, rfl⟩ := List.exists_cons_of_length_pos (hlength ▸ hpos)
    have hfirst := assign_take Nat.zero_lt_one hpos hassign
    exact ⟨proposer, others, by rw [assignProposer, hfirst]; rfl, hassign⟩

/-- Two members of the electorate are the first two of all three. -/
theorem assign_extends_electorate :
    0 < 2 ∧ 2 ≤ 3 ∧ 3 ≤ (counting.eligible electorate).card ∧
      ∃ assignment : Assignment, counting.assign .zero "tag" electorate 3 = .ok assignment ∧
        assignment.members = [numeral 7, numeral 2, numeral 5] ∧
        counting.assign .zero "tag" electorate 2 = .ok ⟨[numeral 7, numeral 2]⟩ := by
  have hcard : 3 ≤ (counting.eligible electorate).card := by decide +kernel
  have hall : counting.assign .zero "tag" electorate 3 =
      .ok ⟨[numeral 7, numeral 2, numeral 5]⟩ := by decide +kernel
  obtain ⟨assignment, hassign, -, htwo⟩ :=
    (assign_extends counting .zero "tag" electorate).1 2 3 (by decide) (by decide) hcard
  rw [hall] at hassign
  cases hassign
  exact ⟨by decide, by decide, hcard, _, hall, rfl, htwo⟩

end Assigner

end StakeLedger
