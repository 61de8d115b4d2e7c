import StakeLedger.Proofs.Conservation
import StakeLedger.Proofs.Payment

/-!
# Which admitted blocks are finalized

Admission looks at what the senders of a block have, but not at what the receivers get, and not
at the identifier of the block. So an admitted block is finalized exactly if its identifier is
not taken and each receiver has room for what it gets
(`finalizeBlock_isOk_iff_of_admission`). Where the sum of all balances is within 64 bits there is
always room (`Extends.finalizeBlock_isOk_iff_of_supply`).
-/

namespace StakeLedger

open Transfers

/-- The receiver of a transfer after others has room for it: with the exact balance that they
leave it, the payment stays within 64 bits. -/
def AccountSnapshot.HasRoom (s : AccountSnapshot) (before : List Transaction)
    (tx : Transaction) : Prop :=
  ∀ receiver, s.account? tx.receiver = some receiver →
    receiver.balance.toNat + received (before ++ [tx]) tx.receiver <
      UInt64.size + sent (before ++ [tx]) tx.receiver

/-- Of a covered list, a transfer is affordable if its receiver has room. -/
theorem SnapshotBuilder.Covers.affords_iff {previous : AccountSnapshot} {blockId : Identifier}
    {height : UInt64} {txs before : List Transaction} {tx : Transaction}
    (hc : (previous.successor blockId height).Covers txs) (hpre : before ++ [tx] <+: txs) :
    (previous.successor blockId height).accounts.Affords before tx ↔
      previous.HasRoom before tx := by
  obtain ⟨after, rfl⟩ := hpre
  have hc' := hc.of_append
  have htx : tx ∈ before ++ [tx] := List.mem_append_right _ (List.mem_singleton_self tx)
  obtain ⟨sender, hs, hle⟩ := hc'.sender tx htx
  obtain ⟨receiver, hr⟩ := hc'.receiver tx htx
  constructor
  · rintro ⟨-, a, ha, hroom⟩ receiver' hr'
    obtain rfl : a = receiver' := Option.some.inj (ha.symm.trans hr')
    exact hroom
  · intro hroom
    have hn := hc'.senders_nodup
    rw [List.map_append, List.map_singleton, List.nodup_append'] at hn
    have hsent : sent before tx.sender = 0 := sent_eq_zero fun other ho he =>
      hn.2.2 (List.mem_map.mpr ⟨other, ho, he⟩) (List.mem_singleton_self _)
    have hle' := UInt64.le_iff_toNat_le.mp hle
    refine ⟨⟨sender, hs, ?_⟩, receiver, hr, hroom receiver hr⟩
    rw [sent_append, hsent, sent_singleton, if_pos rfl]
    omega

namespace Engine

variable {e : Engine} {genesis : AccountSnapshot} {c : Chain} {blocks : List Block}
  {p : Parameters} {b : Block}

/-- An admitted block is finalized exactly if its identifier is not taken and its transfers go
through. -/
theorem Extends.finalizeBlock_isOk_iff (h : e.Extends genesis c blocks)
    (hb : b.admission e.hasher p c = .ok (.ok ())) :
    ∃ previous, c.snapshot? b.previousBlockId = some previous ∧
      (previous.successor (e.hasher.blockId b) b.height).Covers b.transfers ∧
      ((∃ next s, c.finalizeBlock e.hasher b = .ok (next, s)) ↔
        c.snapshot? (e.hasher.blockId b) = none ∧
          ∃ builder, (previous.successor (e.hasher.blockId b) b.height).transferAll
            (e.hasher.blockId b) b.transfers = .ok builder) := by
  obtain ⟨previous, hp, hcov⟩ := Block.covers_of_admission hb
  obtain ⟨last, hl, hlid, hp', hheight, -⟩ := h.linear.parent_of_admission hb
  obtain rfl : previous = last := Option.some.inj (hp.symm.trans hp')
  exact ⟨previous, hp, hcov _ _, h.linear.finalizeBlock_isOk_iff hl hlid hheight⟩

/-- Where the sum of all balances is within 64 bits, only the identifier of a block decides
whether it is finalized once it is admitted. -/
theorem Extends.finalizeBlock_isOk_iff_of_supply (h : e.Extends genesis c blocks)
    (hsupply : genesis.supply < UInt64.size) (hb : b.admission e.hasher p c = .ok (.ok ())) :
    (∃ next s, c.finalizeBlock e.hasher b = .ok (next, s)) ↔
      c.snapshot? (e.hasher.blockId b) = none := by
  obtain ⟨previous, hp, hcov, hiff⟩ := h.finalizeBlock_isOk_iff hb
  obtain ⟨-, hsame⟩ := h.standings_and_supply previous (Chain.mem_of_snapshot? hp)
  rw [← hsame] at hsupply
  exact hiff.trans (and_iff_left (SnapshotBuilder.exists_transferAll_of_covers hsupply hcov))

/-- **Which admitted blocks are finalized.** In every run, a block that is admitted is finalized
exactly if its identifier is none that the chain has already and, taken in order, each of its
transfers finds room at its receiver. -/
theorem finalizeBlock_isOk_iff_of_admission (e : Engine) (genesis : AccountSnapshot)
    (inputs : List EncodedEntity) (p : Parameters) (b : Block)
    (hb : b.admission e.hasher p (e.run (.ofGenesis genesis) inputs) = .ok (.ok ())) :
    ∃ previous, (e.run (.ofGenesis genesis) inputs).snapshot? b.previousBlockId = some previous ∧
      ((∃ next s, (e.run (.ofGenesis genesis) inputs).finalizeBlock e.hasher b = .ok (next, s)) ↔
        (e.run (.ofGenesis genesis) inputs).snapshot? (e.hasher.blockId b) = none ∧
          ∀ before tx, before ++ [tx] <+: b.transfers → previous.HasRoom before tx) := by
  obtain ⟨previous, hp, hcov, hiff⟩ := (extends_run e genesis inputs).finalizeBlock_isOk_iff hb
  refine ⟨previous, hp,
    hiff.trans (and_congr_right fun _ => SnapshotBuilder.transferAll_isOk_iff.trans ?_)⟩
  exact forall_congr' fun before => forall_congr' fun tx => forall_congr' fun hpre =>
    hcov.affords_iff hpre

/-- After a run, a block with two transfers is admitted, and it is finalized. The receiver of each
transfer has room after the other one. -/
theorem finalizeBlock_isOk_iff_of_admission_sample :
    let m := Payment.series
    let c := m.engine.run (.ofGenesis m.genesis) (m.history.map .ofEntity)
    m.settled.admission m.hasher Payment.parameters c = .ok (.ok ()) ∧
      (∃ next s, c.finalizeBlock m.hasher m.settled = .ok (next, s)) ∧
      ∃ previous, c.snapshot? (m.hasher.blockId m.pause) = some previous ∧
        ((∃ next s, c.finalizeBlock m.hasher m.settled = .ok (next, s)) ↔
          c.snapshot? (m.hasher.blockId m.settled) = none ∧
            ∀ before tx, before ++ [tx] <+: m.settled.transfers → previous.HasRoom before tx) ∧
        previous.HasRoom [] m.again ∧ previous.HasRoom [m.again] m.change := by
  intro m c
  obtain ⟨-, hb, hfinalized⟩ := accepts?_eq_some_iff.mp Payment.accepts?_settled
  obtain ⟨previous, hp, hiff⟩ := finalizeBlock_isOk_iff_of_admission m.engine m.genesis
    (m.history.map .ofEntity) Payment.parameters m.settled hb
  have hroom := (hiff.mp hfinalized).2
  exact ⟨hb, hfinalized, previous, hp, hiff, hroom [] m.again ⟨[m.change], rfl⟩,
    hroom [m.again] m.change ⟨[], rfl⟩⟩

/-- **An admitted block need not be finalized.** With all that 64 bits hold on the payee's
account, a payment of 1 is admitted and then overflows. -/
theorem admitted_and_not_finalized :
    let m : Payment := ⟨.blake3, 1, 0xFFFFFFFFFFFFFFFF, 1⟩
    let c := m.engine.run (.ofGenesis m.genesis) [.ofEntity Payment.first]
    m.second.admission m.hasher Payment.parameters c = .ok (.ok ()) ∧
      c.finalizeBlock m.hasher m.second =
        .error (.refused (.invalidArgument (.balanceOverflow Payment.payee))) := by
  intro m c
  have hid : m.firstId ≠ Payment.origin := by decide +kernel
  have hc : c = m.chain := Payment.run_first hid
  rw [hc]
  exact ⟨Payment.admission_second hid (by decide) (by decide),
    Payment.finalizeBlock_second_of_full (by decide) (by decide)⟩

end Engine

end StakeLedger
