import Mathlib.Data.List.Nodup
import StakeLedger.Proofs.Payment

/-!
# What an accepted block spends

Admission judges a transaction by the snapshot of its reference block, which may be much older
than the snapshot that the block spends from. That this is safe rests on the stamps: an account
that differs between two snapshots of a chain is stamped with a block above the lower one.

* `Chain.Stamped` says this of a chain. Every run keeps it (`Extends.stamped`).
* `Chain.Spends` is what follows for a transaction of an admitted block: its sender's account is
  the same in the snapshots of the reference block and of the predecessor
  (`Stamped.spends`).
* `sender_unchanged_of_accepts?` says so of every block that is accepted in a run, and
  `accepted_nodup_and_references_separate` that no transaction is accepted twice and that the
  references of two transactions of one sender lie on both sides of the earlier block.
-/

namespace StakeLedger

open Transfers

namespace Chain

/-- Of two snapshots, the higher one has an account as the lower one has it, or has it stamped
with a block above the lower one. -/
def Stamped (c : Chain) : Prop :=
  ∀ s ∈ c.snapshots, ∀ t ∈ c.snapshots, t.height.toNat ≤ s.height.toNat → ∀ id,
    s.account? id = t.account? id ∨
      ∃ a u, s.account? id = some a ∧ c.snapshot? a.lastBlockId = some u ∧
        t.height.toNat < u.height.toNat

theorem stamped_ofGenesis (genesis : AccountSnapshot) : (ofGenesis genesis).Stamped := by
  intro s hs t ht _ id
  rw [List.mem_singleton.mp hs, List.mem_singleton.mp ht]
  exact .inl rfl

/-- **Appending a snapshot keeps a chain stamped.** -/
theorem Appends.stamped {c c' : Chain} {h : Hasher} {b : Block} {previous next : AccountSnapshot}
    (ha : c.Appends h b previous next c') (hc : c.Linear) (hs : c.Stamped) : c'.Stamped := by
  intro s hsm t htm hle id
  rcases ha.mem_iff.mp hsm with rfl | hsm <;> rcases ha.mem_iff.mp htm with rfl | htm
  · exact .inl rfl
  · -- what the block does not stamp is as its predecessor has it
    rcases ha.account?_cases id with heq | ⟨a, hf, hl⟩
    · have hmem := hc.mem_of_last? ha.last
      rw [heq]
      rcases hs previous hmem t htm (hc.height_le_last ha.last htm) id with
        heq' | ⟨a, u, hf, hu, hlt⟩
      · exact .inl heq'
      · exact .inr ⟨a, u, hf, ha.snapshot?_of_some hu, hlt⟩
    · exact .inr ⟨a, s, hf, hl ▸ ha.snapshot?_next, ha.height_lt hc htm⟩
  · have hlt := ha.height_lt hc hsm
    omega
  · rcases hs s hsm t htm hle id with heq | ⟨a, u, hf, hu, hlt⟩
    · exact .inl heq
    · exact .inr ⟨a, u, hf, ha.snapshot?_of_some hu, hlt⟩

/-- A transaction of a block spends the account `a`, which the snapshots of the reference block
and of the block's predecessor agree on and which was last changed below both. -/
structure Spends (c : Chain) (b : Block) (tx : Transaction)
    (reference previous last : AccountSnapshot) (a : Account) : Prop where
  latest : c.last? = some previous
  snapshot_previous : c.snapshot? b.previousBlockId = some previous
  snapshot_reference : c.snapshot? tx.referenceBlockId = some reference
  snapshot_last : c.snapshot? a.lastBlockId = some last
  sender_reference : reference.account? tx.sender = some a
  sender_previous : previous.account? tx.sender = some a
  receiver_previous : ∃ receiver, previous.account? tx.receiver = some receiver
  last_lt : last.height.toNat < reference.height.toNat
  reference_le : reference.height.toNat ≤ previous.height.toNat
  reference_lt : reference.height.toNat < b.height.toNat

end Chain

/-- The senders in an admitted block are all different. -/
theorem Block.transfers_senders_nodup {b : Block} {h : Hasher} {p : Parameters} {c : Chain}
    (hb : b.admission h p c = .ok (.ok ())) : (b.transfers.map Transaction.sender).Nodup := by
  obtain ⟨-, -, -, -, -, hspend⟩ := admission_eq_ok_iff.mp hb
  obtain ⟨-, -, hn, -⟩ := isSpendable_eq_true_iff.mp hspend
  rw [transfers, List.map_map]
  exact hn

namespace Chain

/-- **An admitted block spends accounts that have not changed since they were judged.** -/
theorem Stamped.spends {c : Chain} {h : Hasher} {p : Parameters} {b : Block} (hs : c.Stamped)
    (hc : c.Linear) (hb : b.admission h p c = .ok (.ok ())) {tx : Transaction}
    (htx : tx ∈ b.transfers) :
    ∃ reference previous last a, c.Spends b tx reference previous last a := by
  obtain ⟨previous, hl, -, hp, hheight, hall⟩ := hc.parent_of_admission hb
  obtain ⟨receiver, a, last, reference, hreceiver, ha, hlast, hr, hlt, -⟩ :=
    Block.isSpendableAt_eq_true_iff.mp (hall tx htx)
  have hlt' := UInt64.lt_iff_toNat_lt.mp hlt
  have hrm := mem_of_snapshot? hr
  have hle := hc.height_le_last hl hrm
  have hsame : reference.account? tx.sender = some a := by
    rcases hs previous (mem_of_snapshot? hp) reference hrm hle tx.sender with
      heq | ⟨a', u, ha', hu, hgt⟩
    · exact heq.symm.trans ha
    · -- a change since the reference block would have stamped the account above it
      obtain rfl : a = a' := Option.some.inj (ha.symm.trans ha')
      obtain rfl : last = u := Option.some.inj (hlast.symm.trans hu)
      omega
  have hbelow : reference.height.toNat < b.height.toNat := by omega
  exact ⟨reference, previous, last, a, hl, hp, hr, hlast, hsame, ha, ⟨receiver, hreceiver⟩, hlt',
    hle, hbelow⟩

/-- What admission asks of a transaction at its reference block, still holds when it spends. -/
theorem Spends.admissibleAt_previous {c : Chain} {h : Hasher} {b : Block} {tx : Transaction}
    {reference previous last : AccountSnapshot} {a : Account}
    (hsp : c.Spends b tx reference previous last a) (hadm : tx.AdmissibleAt h c reference) :
    tx.AdmissibleAt h c previous := by
  obtain ⟨sender, last', signature, key, hs, hle, hl, hlt, hrest⟩ := hadm.sender
  obtain rfl : a = sender := Option.some.inj (hsp.sender_reference.symm.trans hs)
  refine ⟨hadm.amount_pos, hsp.receiver_previous, a, last', signature, key, hsp.sender_previous,
    hle, hl, ?_, hrest⟩
  have hlt' := UInt64.lt_iff_toNat_lt.mp hlt
  have hle' := hsp.reference_le
  exact UInt64.lt_iff_toNat_lt.mpr (by omega)

/-- A chain has the snapshot `s` of a block, in which all the senders are stamped. -/
structure Carries (c : Chain) (h : Hasher) (b : Block) (s : AccountSnapshot) : Prop where
  snapshot : c.snapshot? (h.blockId b) = some s
  height : s.height = b.height
  senders : ∀ tx ∈ b.transfers, ∃ a, s.account? tx.sender = some a ∧ a.lastBlockId = h.blockId b

section Appends

variable {c c' : Chain} {h : Hasher} {b : Block} {previous next : AccountSnapshot}

theorem Appends.carries (ha : c.Appends h b previous next c')
    (hsenders : ∀ tx ∈ b.transfers, ∃ a, previous.account? tx.sender = some a) :
    c'.Carries h b next := by
  refine ⟨ha.snapshot?_next, ha.height, fun tx htx => ?_⟩
  obtain ⟨a, hf⟩ := hsenders tx htx
  exact ha.lastBlockId_of_isParty ((isParty_eq_true_iff _ _).mpr ⟨tx, htx, .inl rfl⟩) hf

theorem Appends.carries_of_carries (ha : c.Appends h b previous next c') {b' : Block}
    {s : AccountSnapshot} (hb : c.Carries h b' s) : c'.Carries h b' s :=
  ⟨ha.snapshot?_of_some hb.snapshot, hb.height, hb.senders⟩

end Appends

/-- **A sender that spent in a block refers to above it when it spends again.** -/
theorem Spends.height_lt_reference {c : Chain} {h : Hasher} {b b' : Block} {s : AccountSnapshot}
    {tx tx' : Transaction} {reference previous last : AccountSnapshot} {a : Account}
    (hsp : c.Spends b' tx' reference previous last a) (hs : c.Stamped) (hc : c.Linear)
    (hb : c.Carries h b s) (htx : tx ∈ b.transfers) (hsender : tx.sender = tx'.sender) :
    b.height.toNat < reference.height.toNat := by
  obtain ⟨a₁, ha₁, hl₁⟩ := hb.senders tx htx
  have hsm := mem_of_snapshot? hb.snapshot
  have hlt := hsp.last_lt
  rw [← hb.height]
  have hle := hc.height_le_last hsp.latest hsm
  rcases hs previous (hc.mem_of_last? hsp.latest) s hsm hle tx'.sender with
    heq | ⟨a₂, u, ha₂, hu, hgt⟩
  · -- no block has changed the account since, so its last block is the one that it spent in
    rw [hsp.sender_previous, ← hsender, ha₁, Option.some.injEq] at heq
    subst heq
    have hlast := hsp.snapshot_last
    rw [hl₁, hb.snapshot, Option.some.injEq] at hlast
    rw [hlast]
    exact hlt
  · obtain rfl : a = a₂ := Option.some.inj (hsp.sender_previous.symm.trans ha₂)
    obtain rfl : last = u := Option.some.inj (hsp.snapshot_last.symm.trans hu)
    omega

end Chain

namespace Engine

variable {e : Engine} {genesis : AccountSnapshot} {c : Chain} {blocks : List Block}

theorem Extends.stamped (h : e.Extends genesis c blocks) : c.Stamped := by
  induction h with
  | genesis => exact Chain.stamped_ofGenesis genesis
  | block h' _ ha ih => exact ha.stamped h'.linear ih

/-- Every transfer of an accepted block spends in the chain that it was accepted in. -/
theorem Extends.spends (h : e.Extends genesis c blocks) {p : Parameters} {b : Block}
    (hb : b.admission e.hasher p c = .ok (.ok ())) {tx : Transaction} (htx : tx ∈ b.transfers) :
    ∃ reference previous last a, c.Spends b tx reference previous last a := by
  exact h.stamped.spends h.linear hb htx

theorem Extends.carries (h : e.Extends genesis c blocks) :
    ∀ b ∈ blocks, ∃ s, c.Carries e.hasher b s := by
  refine h.forall_mem (P := fun c b => ∃ s, c.Carries e.hasher b s) ?new ?kept
  case new =>
    intro c c' blocks b previous next h' hadm ha
    refine ⟨next, ha.carries fun tx htx => ?_⟩
    obtain ⟨reference, previous', last, a, hsp⟩ := h'.spends hadm htx
    obtain rfl : previous = previous' := Option.some.inj (ha.last.symm.trans hsp.latest)
    exact ⟨a, hsp.sender_previous⟩
  case kept =>
    rintro c c' b b' previous next ha ⟨s, hs⟩
    exact ⟨s, ha.carries_of_carries hs⟩

/-- The reference of a transfer in an accepted block is below the block. -/
theorem Extends.reference_lt (h : e.Extends genesis c blocks) :
    ∀ b ∈ blocks, ∀ tx ∈ b.transfers, ∃ reference,
      c.snapshot? tx.referenceBlockId = some reference ∧
      reference.height.toNat < b.height.toNat := by
  refine h.forall_mem (P := fun c b => ∀ tx ∈ b.transfers, ∃ reference,
    c.snapshot? tx.referenceBlockId = some reference ∧
    reference.height.toNat < b.height.toNat) ?new ?kept
  case new =>
    intro c c' blocks b previous next h' hadm ha tx htx
    obtain ⟨reference, _, _, _, hsp⟩ := h'.spends hadm htx
    exact ⟨reference, ha.snapshot?_of_some hsp.snapshot_reference, hsp.reference_lt⟩
  case kept =>
    intro c c' b b' previous next ha hb' tx htx
    obtain ⟨reference, hr, hlt⟩ := hb' tx htx
    exact ⟨reference, ha.snapshot?_of_some hr, hlt⟩

theorem Extends.heights (h : e.Extends genesis c blocks) :
    blocks.Pairwise fun b b' => b.height.toNat < b'.height.toNat := by
  induction h with
  | genesis => exact .nil
  | block h' _ ha ih =>
    refine List.pairwise_append.mpr ⟨ih, List.pairwise_singleton _ _, fun b hb b' hb' => ?_⟩
    obtain ⟨s, hs⟩ := h'.carries b hb
    have hlt := ha.height_lt h'.linear (Chain.mem_of_snapshot? hs.snapshot)
    rw [hs.height, ha.height] at hlt
    rw [List.mem_singleton.mp hb']
    exact hlt

/-- A later transfer of the same sender refers to above the earlier block. -/
theorem Extends.height_lt_reference (h : e.Extends genesis c blocks) :
    ∀ b₁ ∈ blocks, ∀ b₂ ∈ blocks, b₁.height.toNat < b₂.height.toNat →
      ∀ tx₁ ∈ b₁.transfers, ∀ tx₂ ∈ b₂.transfers, tx₁.sender = tx₂.sender →
        ∃ reference, c.snapshot? tx₂.referenceBlockId = some reference ∧
          b₁.height.toNat < reference.height.toNat := by
  induction h with
  | genesis => simp
  | @block c c' blocks b previous next h' hadm ha ih =>
    have hnew : ∀ b' ∈ blocks, b'.height.toNat < b.height.toNat := fun b' hb' =>
      (List.pairwise_append.mp (Extends.block h' hadm ha).heights).2.2 b' hb' b
        (List.mem_singleton_self b)
    intro b₁ hb₁ b₂ hb₂ hlt tx₁ htx₁ tx₂ htx₂ hsender
    rcases List.mem_append.mp hb₁ with hm₁ | hm₁ <;> rcases List.mem_append.mp hb₂ with hm₂ | hm₂
    · obtain ⟨reference, hr, hgt⟩ := ih b₁ hm₁ b₂ hm₂ hlt tx₁ htx₁ tx₂ htx₂ hsender
      exact ⟨reference, ha.snapshot?_of_some hr, hgt⟩
    · obtain rfl := List.mem_singleton.mp hm₂
      obtain ⟨s, hs⟩ := h'.carries b₁ hm₁
      obtain ⟨reference, _, _, _, hsp⟩ := h'.spends hadm htx₂
      exact ⟨reference, ha.snapshot?_of_some hsp.snapshot_reference,
        hsp.height_lt_reference h'.stamped h'.linear hs htx₁ hsender⟩
    · obtain rfl := List.mem_singleton.mp hm₁
      have := hnew b₂ hm₂
      omega
    · rw [List.mem_singleton.mp hm₁, List.mem_singleton.mp hm₂] at hlt
      exact absurd hlt (Nat.lt_irrefl _)

theorem Extends.senders_nodup (h : e.Extends genesis c blocks) :
    ∀ b ∈ blocks, (b.transfers.map Transaction.sender).Nodup :=
  h.forall_mem (P := fun _ b => (b.transfers.map Transaction.sender).Nodup)
    (fun _ hadm _ => Block.transfers_senders_nodup hadm) fun _ hb => hb

/-- No two transfers of accepted blocks have the same body. -/
theorem Extends.bodies_nodup (h : e.Extends genesis c blocks) :
    (blocks.flatMap fun b => b.transfers.map Transaction.body).Nodup := by
  refine List.nodup_flatMap.mpr ⟨fun b hb => ?_, ?_⟩
  · have hn := h.senders_nodup b hb
    have hcomp : b.transfers.map Transaction.sender =
        (b.transfers.map Transaction.body).map (·.2.1) := by
      rw [List.map_map]
      rfl
    rw [hcomp] at hn
    exact hn.of_map
  · refine h.heights.imp_of_mem fun {b₁ b₂} hb₁ hb₂ hlt => ?_
    intro body hbody₁ hbody₂
    obtain ⟨tx₁, htx₁, rfl⟩ := List.mem_map.mp hbody₁
    obtain ⟨tx₂, htx₂, heq⟩ := List.mem_map.mp hbody₂
    obtain ⟨href, hsender, -⟩ :
        tx₂.referenceBlockId = tx₁.referenceBlockId ∧ tx₂.sender = tx₁.sender ∧ _ := by
      simpa only [Transaction.body, Prod.mk.injEq] using heq
    -- the one reference would be below the first block and above it
    obtain ⟨r₁, hr₁, hbelow⟩ := h.reference_lt b₁ hb₁ tx₁ htx₁
    obtain ⟨r₂, hr₂, habove⟩ :=
      h.height_lt_reference b₁ hb₁ b₂ hb₂ hlt tx₁ htx₁ tx₂ htx₂ hsender.symm
    rw [href, hr₁, Option.some.injEq] at hr₂
    subst hr₂
    omega

/-- **What an accepted block spends is as it was judged.** In every run, the sender of a
transaction of an accepted block has one account in the snapshots of the reference block and of
the block's predecessor, the reference is below the block, and all that admission asks of the
transaction holds at both snapshots. -/
theorem sender_unchanged_of_accepts? (e : Engine) (genesis : AccountSnapshot)
    (inputs : List EncodedEntity) (x : EncodedEntity) (b : Block)
    (h : e.accepts? (e.run (.ofGenesis genesis) inputs) x = some b) :
    ∀ v ∈ b.transactions, ∃ reference previous sender,
      (e.run (.ofGenesis genesis) inputs).snapshot? v.transaction.referenceBlockId =
        some reference ∧
      (e.run (.ofGenesis genesis) inputs).snapshot? b.previousBlockId = some previous ∧
      reference.account? v.transaction.sender = some sender ∧
      previous.account? v.transaction.sender = some sender ∧
      reference.height < b.height ∧
      v.transaction.AdmissibleAt e.hasher (e.run (.ofGenesis genesis) inputs) reference ∧
      v.transaction.AdmissibleAt e.hasher (e.run (.ofGenesis genesis) inputs) previous := by
  intro v hv
  have hrun := extends_run e genesis inputs
  have hb := (accepts?_eq_some_iff.mp h).2.1
  obtain ⟨reference, previous, last, a, hsp⟩ := hrun.spends hb (List.mem_map_of_mem hv)
  obtain ⟨-, -, -, -, hall, -⟩ := Block.admission_eq_ok_iff.mp hb
  have hadm := Block.admissionOfAll_eq_ok_iff.mp hall v hv
  obtain ⟨reference', hr, hat⟩ := Transaction.admission_eq_ok_iff_admissibleAt.mp hadm
  obtain rfl : reference = reference' := Option.some.inj (hsp.snapshot_reference.symm.trans hr)
  exact ⟨reference, previous, a, hsp.snapshot_reference, hsp.snapshot_previous,
    hsp.sender_reference, hsp.sender_previous, UInt64.lt_iff_toNat_lt.mpr hsp.reference_lt, hat,
    hsp.admissibleAt_previous hat⟩

/-- The third block of a run spends the payer's account as it was judged two blocks earlier, while
the block between them has changed the payee's account. -/
theorem sender_unchanged_of_accepts?_sample :
    let m := Payment.series
    let inputs : List EncodedEntity := [Payment.first, m.detour].map .ofEntity
    let c := m.engine.run (.ofGenesis m.genesis) inputs
    m.engine.accepts? c (.ofEntity m.delayed) = some m.delayed ∧
      ∃ reference previous sender, c.snapshot? m.firstId = some reference ∧
        c.snapshot? (m.hasher.blockId m.detour) = some previous ∧
        reference.height < previous.height ∧
        reference.account? Payment.payee ≠ previous.account? Payment.payee ∧
        reference.account? Payment.payer = some sender ∧
        previous.account? Payment.payer = some sender ∧ reference.height < 3 ∧
        m.transaction.AdmissibleAt m.hasher c reference ∧
        m.transaction.AdmissibleAt m.hasher c previous := by
  intro m inputs c
  have hendorsed : ∀ b ∈ [Payment.first, m.detour], Payment.Endorsed b := fun b hb =>
    m.endorsed_history b ((List.take_sublist 2 m.history).subset hb)
  have hdelayed : Payment.Endorsed m.delayed := m.endorsed_history _ (by simp [Payment.history])
  have hextend : (m.extend? (m.play (.ofGenesis m.genesis) [Payment.first, m.detour]).1
      m.delayed).isSome = true := by
    decide +kernel
  have haccepts : m.engine.accepts? c (.ofEntity m.delayed) = some m.delayed :=
    Payment.accepts?_of_play hendorsed hdelayed hextend
  have hc : c = (m.play (.ofGenesis m.genesis) [Payment.first, m.detour]).1 :=
    (Payment.play_eq .genesis hendorsed).1
  obtain ⟨reference, previous, sender, hr, hp, hsender, hsender', hlt, hat, hat'⟩ :=
    sender_unchanged_of_accepts? m.engine m.genesis inputs (.ofEntity m.delayed) m.delayed haccepts
      ⟨m.transaction, [.neutral Payment.payee]⟩ (List.mem_singleton_self _)
  have hheight : (c.snapshot? m.transaction.referenceBlockId).map AccountSnapshot.height = some 1 ∧
      (c.snapshot? m.delayed.previousBlockId).map AccountSnapshot.height = some 2 := by
    rw [hc]
    decide +kernel
  have hpayee : (c.snapshot? m.transaction.referenceBlockId).map (·.account? Payment.payee) ≠
      (c.snapshot? m.delayed.previousBlockId).map (·.account? Payment.payee) := by
    rw [hc]
    decide +kernel
  rw [hr, hp, Option.map_some, Option.map_some] at hheight hpayee
  refine ⟨haccepts, reference, previous, sender, hr, hp, ?_, fun heq => hpayee (congrArg some heq),
    hsender, hsender', hlt, hat, hat'⟩
  rw [Option.some.inj hheight.1, Option.some.inj hheight.2]
  decide

/-- **Nothing is replayed.** In every run, no transfer is contained twice in the accepted
blocks, whatever its signatures, and if one sender spends in two of them, the references of the
two transfers lie below and above the lower block. -/
theorem accepted_nodup_and_references_separate (e : Engine) (genesis : AccountSnapshot)
    (inputs : List EncodedEntity) :
    ((e.accepted (.ofGenesis genesis) inputs).flatMap fun b =>
      b.transfers.map Transaction.body).Nodup ∧
      ∀ b₁ ∈ e.accepted (.ofGenesis genesis) inputs, ∀ b₂ ∈ e.accepted (.ofGenesis genesis) inputs,
        b₁.height < b₂.height →
          ∀ tx₁ ∈ b₁.transfers, ∀ tx₂ ∈ b₂.transfers, tx₁.sender = tx₂.sender →
          ∃ r₁ r₂, (e.run (.ofGenesis genesis) inputs).snapshot? tx₁.referenceBlockId = some r₁ ∧
            (e.run (.ofGenesis genesis) inputs).snapshot? tx₂.referenceBlockId = some r₂ ∧
            r₁.height < b₁.height ∧ b₁.height < r₂.height := by
  have hrun := extends_run e genesis inputs
  refine ⟨hrun.bodies_nodup, fun b₁ hb₁ b₂ hb₂ hlt tx₁ htx₁ tx₂ htx₂ hsender => ?_⟩
  obtain ⟨r₁, hr₁, hbelow⟩ := hrun.reference_lt b₁ hb₁ tx₁ htx₁
  obtain ⟨r₂, hr₂, habove⟩ :=
    hrun.height_lt_reference b₁ hb₁ b₂ hb₂ (UInt64.lt_iff_toNat_lt.mp hlt) tx₁ htx₁ tx₂ htx₂ hsender
  exact ⟨r₁, r₂, hr₁, hr₂, UInt64.lt_iff_toNat_lt.mpr hbelow, UInt64.lt_iff_toNat_lt.mpr habove⟩

/-- Of six blocks, five are accepted and the one that has a transfer again is not. The payer
spends in two of them, and its second transfer refers to above the block of the first one. -/
theorem accepted_nodup_and_references_separate_sample :
    let m := Payment.series
    let inputs : List EncodedEntity := (m.history ++ [m.settled]).map .ofEntity
    let c := m.engine.run (.ofGenesis m.genesis) inputs
    let accepted := m.engine.accepted (.ofGenesis m.genesis) inputs
    accepted = [Payment.first, m.detour, m.delayed, m.pause, m.settled] ∧
      (m.replayed ∈ m.history ∧ m.replayed ∉ accepted) ∧
      (accepted.flatMap fun b => b.transfers.map Transaction.body).Nodup ∧
      (m.transaction ∈ m.delayed.transfers ∧ m.again ∈ m.settled.transfers) ∧
      m.transaction.sender = m.again.sender ∧
      ∃ r₁ r₂, c.snapshot? m.transaction.referenceBlockId = some r₁ ∧
        c.snapshot? m.again.referenceBlockId = some r₂ ∧ r₁.height < 3 ∧ 3 < r₂.height := by
  intro m inputs c accepted
  have hendorsed : ∀ b ∈ m.history ++ [m.settled], Payment.Endorsed b := by
    simpa [or_imp, forall_and] using ⟨m.endorsed_history, m.endorsed_settled⟩
  have haccepted : accepted = [Payment.first, m.detour, m.delayed, m.pause, m.settled] :=
    (Payment.play_eq .genesis hendorsed).2.trans (by decide +kernel)
  have hreplayed : m.replayed ∈ m.history ∧ m.replayed ∉ accepted := by
    rw [haccepted]
    decide +kernel
  have hdelayed : m.delayed ∈ accepted := by
    rw [haccepted]
    simp
  have hsettled : m.settled ∈ accepted := by
    rw [haccepted]
    simp
  have htransfers : m.transaction ∈ m.delayed.transfers ∧ m.again ∈ m.settled.transfers :=
    ⟨List.mem_cons_self, List.mem_cons_self⟩
  have hsender : m.transaction.sender = m.again.sender := by
    show Payment.payer = Payment.payer
    rfl
  have hheights : m.delayed.height < m.settled.height := by
    show (3 : UInt64) < 5
    decide
  obtain ⟨hnodup, hseparate⟩ := accepted_nodup_and_references_separate m.engine m.genesis inputs
  exact ⟨haccepted, hreplayed, hnodup, htransfers, hsender,
    hseparate m.delayed hdelayed m.settled hsettled hheights m.transaction htransfers.1 m.again
      htransfers.2 hsender⟩

end Engine

end StakeLedger
