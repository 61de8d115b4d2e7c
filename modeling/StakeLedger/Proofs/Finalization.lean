import StakeLedger.Proofs.Admission
import StakeLedger.Proofs.Transfer

/-!
# Finalizing blocks

What finalizing does to a chain in which the snapshots follow one another, as they do in every
chain that an engine keeps.

* `Chain.Posts` relates a block, the snapshot of its predecessor and the snapshot that its transfers
  make of that (`posts_of_transferAll`).
* `Chain.Linear` says that the snapshots have names of their own and descend in height from the
  latest one.
* `Chain.Appends` relates a linear chain, a block and the chain in which the block's snapshot is
  the latest. Finalizing a block on the latest snapshot does this or fails
  (`Linear.appends_of_finalizeBlock`), and keeps the chain linear (`Appends.linear`).
* It does not fail exactly if the block has a name that is not taken and its transfers go
  through (`Linear.finalizeBlock_isOk_iff`).
-/

namespace StakeLedger

open Transfers

/-- The transfers of a block in order. -/
def Block.transfers (b : Block) : List Transaction :=
  b.transactions.map ValidatedTransaction.transaction

namespace Chain

/-! ## Looking snapshots up -/

theorem mem_of_snapshot? {c : Chain} {id : Identifier} {s : AccountSnapshot}
    (h : c.snapshot? id = some s) :
    s ∈ c.snapshots :=
  List.mem_of_find?_eq_some h

theorem snapshot?_cons (s : AccountSnapshot) (snapshots : List AccountSnapshot)
    (last last' : Option Identifier)
    (id : Identifier) : (Chain.mk (s :: snapshots) last).snapshot? id =
      if s.blockId = id then some s else (Chain.mk snapshots last').snapshot? id := by
  simp only [snapshot?, List.find?_cons]
  split <;> simp_all

/-- The chain that consists of one snapshot. -/
def ofGenesis (genesis : AccountSnapshot) : Chain :=
  ⟨[genesis], some genesis.blockId⟩

theorem withGenesis_eq (genesis : AccountSnapshot) :
    withGenesis genesis = .ok (ofGenesis genesis) := rfl

theorem snapshot?_ofGenesis (genesis : AccountSnapshot) :
    (ofGenesis genesis).snapshot? genesis.blockId = some genesis := by
  rw [ofGenesis, snapshot?_cons _ _ _ none, if_pos rfl]

/-- The snapshots have names of their own and descend in height, the latest one first. -/
structure Linear (c : Chain) : Prop where
  latest : ∃ s older, c.snapshots = s :: older ∧ c.lastFinalized = some s.blockId
  named : c.snapshots.Pairwise fun s t => s.blockId ≠ t.blockId
  descending : c.snapshots.Pairwise fun s t => t.height.toNat < s.height.toNat

theorem linear_ofGenesis (genesis : AccountSnapshot) : (ofGenesis genesis).Linear :=
  ⟨⟨genesis, [], rfl, rfl⟩, List.pairwise_singleton _ _, List.pairwise_singleton _ _⟩

namespace Linear

variable {c : Chain} {s last : AccountSnapshot}

theorem snapshot?_of_mem (hc : c.Linear) (hs : s ∈ c.snapshots) :
    c.snapshot? s.blockId = some s := by
  obtain ⟨snapshots, lastFinalized⟩ := c
  have hn := hc.named
  clear hc
  induction snapshots with
  | nil => cases hs
  | cons t rest ih =>
    rw [List.pairwise_cons] at hn
    rw [snapshot?_cons _ _ _ lastFinalized]
    rcases List.mem_cons.mp hs with rfl | hs
    · rw [if_pos rfl]
    · rw [if_neg (hn.1 s hs)]
      exact ih hs hn.2

theorem last?_eq_head? (hc : c.Linear) : c.last? = c.snapshots.head? := by
  obtain ⟨s, older, hs, hl⟩ := hc.latest
  have hm : s ∈ c.snapshots := hs ▸ List.mem_cons_self
  rw [last?, hl, hs]
  exact hc.snapshot?_of_mem hm

theorem mem_of_last? (hc : c.Linear) (hl : c.last? = some last) : last ∈ c.snapshots :=
  List.mem_of_head? (hc.last?_eq_head? ▸ hl)

theorem height_le_last (hc : c.Linear) (hl : c.last? = some last) (hs : s ∈ c.snapshots) :
    s.height.toNat ≤ last.height.toNat := by
  rw [hc.last?_eq_head?, List.head?_eq_some_iff] at hl
  obtain ⟨older, ho⟩ := hl
  have hd := hc.descending
  rw [ho] at hs hd
  rcases List.mem_cons.mp hs with rfl | hs
  · exact Nat.le_refl _
  · exact Nat.le_of_lt (List.rel_of_pairwise_cons hd hs)

end Linear

/-! ## What finalizing does -/

theorem succeed_eq (previous : AccountSnapshot) (h : Hasher) (b : Block) :
    succeed previous h b =
      ((previous.successor (h.blockId b) b.height).transferAll (h.blockId b) b.transfers).map
        (·.sealed h) := by
  rw [succeed, h.entityId_block, Block.transfers]
  simp only
  cases (previous.successor (h.blockId b) b.height).transferAll (h.blockId b) _ with
  | error e => rfl
  | ok builder => exact builder.build_eq h

theorem finalizeBlock_eq_ok_iff {c : Chain} {h : Hasher} {b : Block} {r : Chain × AccountSnapshot} :
    c.finalizeBlock h b = .ok r ↔
      ∃ previous builder, c.snapshot? b.previousBlockId = some previous ∧
        b.height.toNat = previous.height.toNat + 1 ∧
        (previous.successor (h.blockId b) b.height).transferAll (h.blockId b) b.transfers =
          .ok builder ∧
        c.addSnapshot (builder.sealed h) = .ok r := by
  unfold finalizeBlock
  cases c.snapshot? b.previousBlockId with
  | none => simp
  | some previous =>
    simp only [Option.some.injEq, exists_and_left, exists_eq_left']
    cases hs : successorHeight? previous.height with
    | none =>
      have hne : b.height.toNat ≠ previous.height.toNat + 1 := fun he => by
        simp [successorHeight?_eq_some_iff.mpr he] at hs
      simp [hne]
    | some expected =>
      have he := successorHeight?_eq_some_iff.mp hs
      rw [← he, UInt64.toNat_inj, succeed_eq]
      by_cases hh : b.height = expected
      · cases (previous.successor (h.blockId b) b.height).transferAll (h.blockId b) b.transfers with
        | error e => simp [hh, Except.map]
        | ok builder =>
          simp only [hh, Except.map, Except.mapError, ne_eq, not_true_eq_false, if_false, true_and,
            Except.ok.injEq, exists_eq_left']
          cases c.addSnapshot (builder.sealed h) <;> simp
      · simp [hh]

/-- The snapshot `next` of the block `b` settles the accounts of `previous` by the transfers of
`b`. -/
structure Posts (h : Hasher) (b : Block) (previous next : AccountSnapshot) : Prop where
  blockId : next.blockId = h.blockId b
  height : next.height = b.height
  settled : ∀ id,
    Option.Rel (Settled (h.blockId b) b.transfers) (previous.account? id) (next.account? id)
  standings : next.all.map Account.standing = previous.all.map Account.standing
  supply : next.supply = previous.supply

/-- **What the transfers of a block make of the snapshot of its predecessor.** -/
theorem posts_of_transferAll {h : Hasher} {b : Block} {previous : AccountSnapshot}
    {builder : SnapshotBuilder}
    (ht : (previous.successor (h.blockId b) b.height).transferAll (h.blockId b) b.transfers =
      .ok builder) :
    Posts h b previous (builder.sealed h) where
  blockId := SnapshotBuilder.blockId_transferAll ht
  height := SnapshotBuilder.height_transferAll ht
  settled := SnapshotBuilder.settled_transferAll ht
  standings := SnapshotBuilder.standings_transferAll ht
  supply := SnapshotBuilder.supply_transferAll ht

/-- The snapshot `next` of the block `b` stands on top of the snapshots of `c`, the latest of
which is `previous`, and settles the accounts of `previous` by the transfers of `b`. -/
structure Appends (c : Chain) (h : Hasher) (b : Block) (previous next : AccountSnapshot)
    (c' : Chain) : Prop where
  last : c.last? = some previous
  parent : c.snapshot? b.previousBlockId = some previous
  fresh : c.snapshot? (h.blockId b) = none
  chain : c' = ⟨next :: c.snapshots, some next.blockId⟩
  blockId : next.blockId = h.blockId b
  height : next.height = b.height
  height_eq : b.height.toNat = previous.height.toNat + 1
  settled : ∀ id,
    Option.Rel (Settled (h.blockId b) b.transfers) (previous.account? id) (next.account? id)
  standings : next.all.map Account.standing = previous.all.map Account.standing
  supply : next.supply = previous.supply

namespace Linear

variable {c : Chain} {h : Hasher} {b : Block} {previous : AccountSnapshot}

theorem snapshot?_of_last? (hc : c.Linear) (hl : c.last? = some previous)
    (hp : previous.blockId = b.previousBlockId) : c.snapshot? b.previousBlockId = some previous :=
  hp ▸ hc.snapshot?_of_mem (hc.mem_of_last? hl)

/-- An admitted block stands on the latest snapshot, and its transfers can be spent there. -/
theorem parent_of_admission {p : Parameters} (hc : c.Linear)
    (hb : b.admission h p c = .ok (.ok ())) :
    ∃ previous, c.last? = some previous ∧ previous.blockId = b.previousBlockId ∧
      c.snapshot? b.previousBlockId = some previous ∧
      b.height.toNat = previous.height.toNat + 1 ∧
      ∀ tx ∈ b.transfers, Block.isSpendableAt c previous tx = true := by
  obtain ⟨hcorrect, hcons, -, -, -, hspend⟩ := Block.admission_eq_ok_iff.mp hb
  obtain ⟨previous, hl, hp⟩ := Block.isConsistent_eq_true_iff.mp hcons
  have hparent := hc.snapshot?_of_last? hl hp
  obtain ⟨previous₁, hp₁, hheight, -⟩ := Block.isCorrect_eq_ok_true_iff.mp hcorrect
  obtain ⟨previous₂, hp₂, -, hall⟩ := Block.isSpendable_eq_true_iff.mp hspend
  obtain rfl : previous = previous₁ := Option.some.inj (hparent.symm.trans hp₁)
  obtain rfl : previous = previous₂ := Option.some.inj (hparent.symm.trans hp₂)
  refine ⟨previous, hl, hp, hparent, hheight, fun tx htx => ?_⟩
  obtain ⟨v, hv, rfl⟩ := List.mem_map.mp htx
  exact hall v hv

/-- Above the latest height, a snapshot is added exactly if its name is not taken. -/
theorem addSnapshot_eq_ok_iff {next : AccountSnapshot} {r : Chain × AccountSnapshot} (hc : c.Linear)
    (hl : c.last? = some previous) (hh : previous.height.toNat < next.height.toNat) :
    c.addSnapshot next = .ok r ↔
      c.snapshot? next.blockId = none ∧ r = (⟨next :: c.snapshots, some next.blockId⟩, next) := by
  unfold addSnapshot
  cases ht : c.snapshot? next.blockId with
  | none =>
    have hadv : c.advances next.height = true := by
      simpa [advances, hl] using UInt64.lt_iff_toNat_lt.mpr hh
    simp [hadv, eq_comm]
  | some taken =>
    have hle := hc.height_le_last hl (mem_of_snapshot? ht)
    have hne : taken.height ≠ next.height := fun he => by
      rw [he] at hle
      omega
    simp [AccountSnapshot.sameAs, hne]

/-- **A block on the latest snapshot is finalized exactly if its name is not taken and its
transfers go through.** -/
theorem finalizeBlock_isOk_iff (hc : c.Linear) (hl : c.last? = some previous)
    (hp : previous.blockId = b.previousBlockId) (hh : b.height.toNat = previous.height.toNat + 1) :
    (∃ next s, c.finalizeBlock h b = .ok (next, s)) ↔
      c.snapshot? (h.blockId b) = none ∧
        ∃ builder, (previous.successor (h.blockId b) b.height).transferAll (h.blockId b)
          b.transfers = .ok builder := by
  have hparent := hc.snapshot?_of_last? hl hp
  have hnext : ∀ builder : SnapshotBuilder,
      (previous.successor (h.blockId b) b.height).transferAll (h.blockId b) b.transfers =
        .ok builder →
      (builder.sealed h).blockId = h.blockId b ∧
        previous.height.toNat < (builder.sealed h).height.toNat := by
    intro builder ht
    refine ⟨SnapshotBuilder.blockId_transferAll ht, ?_⟩
    rw [SnapshotBuilder.height_sealed, SnapshotBuilder.height_transferAll ht]
    exact hh ▸ Nat.lt_succ_self _
  constructor
  · rintro ⟨next, s, hf⟩
    obtain ⟨previous', builder, hp', -, ht, ha⟩ := finalizeBlock_eq_ok_iff.mp hf
    obtain rfl : previous = previous' := Option.some.inj (hparent.symm.trans hp')
    obtain ⟨hid, hlt⟩ := hnext builder ht
    have hfresh := ((hc.addSnapshot_eq_ok_iff hl hlt).mp ha).1
    exact ⟨hid ▸ hfresh, builder, ht⟩
  · rintro ⟨hfresh, builder, ht⟩
    obtain ⟨hid, hlt⟩ := hnext builder ht
    have ha := (hc.addSnapshot_eq_ok_iff hl hlt).mpr ⟨hid.symm ▸ hfresh, rfl⟩
    exact ⟨_, _, finalizeBlock_eq_ok_iff.mpr ⟨previous, builder, hparent, hh, ht, ha⟩⟩

/-- **What finalizing a block on the latest snapshot does.** -/
theorem appends_of_finalizeBlock {next : AccountSnapshot} {c' : Chain} (hc : c.Linear)
    (hl : c.last? = some previous) (hp : previous.blockId = b.previousBlockId)
    (hf : c.finalizeBlock h b = .ok (c', next)) : c.Appends h b previous next c' := by
  have hparent := hc.snapshot?_of_last? hl hp
  obtain ⟨previous', builder, hp', hh, ht, ha⟩ := finalizeBlock_eq_ok_iff.mp hf
  obtain rfl : previous = previous' := Option.some.inj (hparent.symm.trans hp')
  have hposts := posts_of_transferAll ht
  have hlt : previous.height.toNat < (builder.sealed h).height.toNat := by
    rw [hposts.height]
    omega
  obtain ⟨hfresh, hr⟩ := (hc.addSnapshot_eq_ok_iff hl hlt).mp ha
  obtain ⟨rfl, rfl⟩ := Prod.mk.inj hr
  exact
    { last := hl
      parent := hparent
      fresh := hposts.blockId ▸ hfresh
      chain := rfl
      blockId := hposts.blockId
      height := hposts.height
      height_eq := hh
      settled := hposts.settled
      standings := hposts.standings
      supply := hposts.supply }

end Linear

namespace Appends

variable {c c' : Chain} {h : Hasher} {b : Block} {previous next : AccountSnapshot}

theorem mem_iff (ha : c.Appends h b previous next c') {s : AccountSnapshot} :
    s ∈ c'.snapshots ↔ s = next ∨ s ∈ c.snapshots := by
  rw [ha.chain]
  exact List.mem_cons

theorem last?_eq (ha : c.Appends h b previous next c') : c'.last? = some next := by
  rw [ha.chain, last?, Option.bind_some, snapshot?_cons _ _ _ c.lastFinalized, if_pos rfl]

theorem snapshot?_next (ha : c.Appends h b previous next c') :
    c'.snapshot? (h.blockId b) = some next := by
  rw [ha.chain, snapshot?_cons _ _ _ c.lastFinalized, if_pos ha.blockId]

/-- Snapshots stay where they are. -/
theorem snapshot?_of_some (ha : c.Appends h b previous next c') {id : Identifier}
    {s : AccountSnapshot} (hs : c.snapshot? id = some s) : c'.snapshot? id = some s := by
  have hne : next.blockId ≠ id := fun he => by
    rw [← he, ha.blockId, ha.fresh] at hs
    cases hs
  rw [ha.chain, snapshot?_cons _ _ _ c.lastFinalized, if_neg hne]
  exact hs

theorem height_lt (ha : c.Appends h b previous next c') (hc : c.Linear) {s : AccountSnapshot}
    (hs : s ∈ c.snapshots) : s.height.toNat < next.height.toNat := by
  have hle := hc.height_le_last ha.last hs
  have heq := ha.height_eq
  rw [ha.height]
  omega

/-- A party of a transfer is stamped with the block. -/
theorem lastBlockId_of_isParty (ha : c.Appends h b previous next c') {id : Identifier} {a : Account}
    (hp : isParty b.transfers id = true) (hf : previous.account? id = some a) :
    ∃ a', next.account? id = some a' ∧ a'.lastBlockId = h.blockId b := by
  have hid : a.identifier = id := SortedBy.key_of_find? hf
  obtain ⟨a', hf', hs⟩ := exists_of_rel_some (ha.settled id) hf
  exact ⟨a', hf', by rw [hs.lastBlockId, hid, if_pos hp]⟩

/-- An account stays as it was, or it is stamped with the block. -/
theorem account?_cases (ha : c.Appends h b previous next c') (id : Identifier) :
    next.account? id = previous.account? id ∨
      ∃ a, next.account? id = some a ∧ a.lastBlockId = h.blockId b := by
  cases hf : previous.account? id with
  | none => exact .inl (eq_none_of_rel_none (ha.settled id) hf)
  | some a =>
    cases hp : isParty b.transfers id with
    | true => exact .inr (ha.lastBlockId_of_isParty hp hf)
    | false =>
      have hid : a.identifier = id := SortedBy.key_of_find? hf
      obtain ⟨a', hf', hs⟩ := exists_of_rel_some (ha.settled id) hf
      rw [hs.eq_of_not_isParty (hid ▸ hp)] at hf'
      exact .inl hf'

/-- **The chain stays linear.** -/
theorem linear (ha : c.Appends h b previous next c') (hc : c.Linear) : c'.Linear := by
  have hnamed : ∀ s ∈ c.snapshots, next.blockId ≠ s.blockId := by
    intro s hs he
    have hsome := hc.snapshot?_of_mem hs
    rw [← he, ha.blockId, ha.fresh] at hsome
    cases hsome
  refine ⟨?_, ?_, ?_⟩ <;> rw [ha.chain]
  · exact ⟨next, c.snapshots, rfl, rfl⟩
  · exact List.pairwise_cons.mpr ⟨hnamed, hc.named⟩
  · exact List.pairwise_cons.mpr ⟨fun s hs => ha.height_lt hc hs, hc.descending⟩

end Appends

end Chain

end StakeLedger
