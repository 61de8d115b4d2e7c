import StakeLedger.Proofs.Ledger
import StakeLedger.Proofs.Membership

/-!
# The order of transactions in a block

A block with the transactions of another in some other order has another identifier, and the
signature of the other does not fit it. That is all: the predicates that do not look at the
signature say the same of both, and if both are finalized, the accounts are the same afterwards but
for the identifier that the changed ones are stamped with. What an account sends and receives in a
list of transfers is a sum, so the order of the list leaves no trace in it.

Whether a block can be finalized does depend on the order: what is received may be spent only
afterwards.

* `Block.Reorders` relates two blocks of the same transactions.
* `Chain.Posts.agree` compares what two such blocks make of one snapshot.
* `Block.Reorders.immaterial` is the main statement.
-/

namespace StakeLedger

/-! ## Sums over transfers in any order -/

namespace Transfers

variable {txs txs' : List Transaction}

theorem sent_perm (hperm : txs.Perm txs') (id : Identifier) : sent txs id = sent txs' id :=
  (hperm.map _).sum_nat

theorem received_perm (hperm : txs.Perm txs') (id : Identifier) :
    received txs id = received txs' id :=
  (hperm.map _).sum_nat

theorem isParty_perm (hperm : txs.Perm txs') (id : Identifier) :
    isParty txs id = isParty txs' id :=
  hperm.any_eq

end Transfers

open Transfers

/-- The block has the transactions of another one in some order, on the same predecessor and at the
same height. -/
structure Block.Reorders (b' b : Block) : Prop where
  previousBlockId : b'.previousBlockId = b.previousBlockId
  height : b'.height = b.height
  perm : b'.transactions.Perm b.transactions

namespace Block.Reorders

variable {b b' : Block} (hr : b'.Reorders b) (h : Hasher) (p : Parameters) (c : Chain)

include hr

theorem transfers_perm : b'.transfers.Perm b.transfers :=
  hr.perm.map _

/-! ## Predicates of a block -/

theorem hasDistinctTransactions_eq : b'.hasDistinctTransactions h = b.hasDistinctTransactions h := by
  simp only [hasDistinctTransactions, transactionIds?_eq]
  exact decide_eq_decide.mpr (hr.perm.map _).nodup_iff

theorem isCorrect_eq : b'.isCorrect h p c = b.isCorrect h p c := by
  rw [isCorrect, isCorrect, hr.previousBlockId, hr.height, hr.perm.length_eq,
    hr.hasDistinctTransactions_eq]

theorem isConsistent_eq : b'.isConsistent c = b.isConsistent c := by
  rw [isConsistent, isConsistent, hr.previousBlockId]

theorem isCertified_eq : b'.isCertified h p c = b.isCertified h p c :=
  hr.perm.all_eq

theorem admissionOfAll_iff :
    admissionOfAll h c b'.transactions = .ok () ↔ admissionOfAll h c b.transactions = .ok () := by
  rw [admissionOfAll_eq_ok_iff, admissionOfAll_eq_ok_iff]
  exact forall_congr' fun v => by rw [hr.perm.mem_iff]

theorem isSpendable_eq : b'.isSpendable c = b.isSpendable c := by
  have hsenders : (b'.transactions.map (·.transaction.sender)).Nodup ↔
      (b.transactions.map (·.transaction.sender)).Nodup := (hr.perm.map _).nodup_iff
  simp only [isSpendable, hr.previousBlockId, hsenders, hr.perm.all_eq]

end Block.Reorders

/-! ## Snapshots of a block -/

namespace Chain

variable {c : Chain} {h : Hasher} {b b' : Block} {previous s s' : AccountSnapshot}

/-- **What two blocks of the same transfers make of an account.** It is the same but for the stamp,
and it is stamped in both cases or stays as it was in both. -/
theorem Posts.agree (hs : Posts h b previous s) (hs' : Posts h b' previous s')
    (hperm : b'.transfers.Perm b.transfers) {id : Identifier} {a : Account}
    (ha : previous.account? id = some a) :
    ∃ x x', s.account? id = some x ∧ s'.account? id = some x' ∧ x'.standing = x.standing ∧
      x'.balance = x.balance ∧
      if isParty b.transfers id then x.lastBlockId = h.blockId b ∧ x'.lastBlockId = h.blockId b'
      else x = a ∧ x' = a := by
  obtain ⟨x, hx, hsettled⟩ := exists_of_rel_some (hs.settled id) ha
  obtain ⟨x', hx', hsettled'⟩ := exists_of_rel_some (hs'.settled id) ha
  have hid : a.identifier = id := SortedBy.key_of_find? ha
  have hparty : isParty b'.transfers id = isParty b.transfers id := isParty_perm hperm id
  refine ⟨x, x', hx, hx', hsettled'.standing.trans hsettled.standing.symm, ?balance, ?stamp⟩
  case balance =>
    have hbalance := hsettled.balance
    have hbalance' := hsettled'.balance
    rw [sent_perm hperm, received_perm hperm] at hbalance'
    exact UInt64.toNat_inj.mp (by omega)
  case stamp =>
    split
    · next hp =>
      rw [hsettled.lastBlockId, hsettled'.lastBlockId, hid, hparty, if_pos hp, if_pos hp]
      exact ⟨rfl, rfl⟩
    · next hp =>
      rw [Bool.not_eq_true] at hp
      exact ⟨hsettled.eq_of_not_isParty (hid ▸ hp),
        hsettled'.eq_of_not_isParty (hid ▸ hparty.trans hp)⟩

end Chain

/-- **The order of the transactions in a block is immaterial.** Of two blocks with the same
transactions on one predecessor, the predicates that do not look at the signature of a block say the
same, and all transactions of the one are admissible exactly if all of the other are. If both blocks
are finalized, the two snapshots have the same accounts, with the same stakes, public keys and
balances. An account that is a party of a transfer is stamped with the one block here and with the
other one there, and every other account stays as it was in both. -/
theorem Block.Reorders.immaterial {b b' : Block} (hr : b'.Reorders b) (h : Hasher) (p : Parameters)
    (c : Chain) :
    b'.isCorrect h p c = b.isCorrect h p c ∧ b'.isConsistent c = b.isConsistent c ∧
      b'.isCertified h p c = b.isCertified h p c ∧ b'.isSpendable c = b.isSpendable c ∧
      (admissionOfAll h c b'.transactions = .ok () ↔
        admissionOfAll h c b.transactions = .ok ()) ∧
      ∀ d d' s s', c.finalizeBlock h b = .ok (d, s) → d ≠ c →
        c.finalizeBlock h b' = .ok (d', s') → d' ≠ c →
        s'.height = s.height ∧ s'.accounts.keys = s.accounts.keys ∧
        ∃ previous, c.snapshot? b.previousBlockId = some previous ∧
          previous.accounts.keys = s.accounts.keys ∧
          ∀ id a, previous.account? id = some a → ∃ x x', s.account? id = some x ∧
            s'.account? id = some x' ∧ x'.identifier = x.identifier ∧ x'.stake = x.stake ∧
            x'.publicKey = x.publicKey ∧ x'.balance = x.balance ∧
            if isParty b.transfers id then
              x.lastBlockId = h.blockId b ∧ x'.lastBlockId = h.blockId b'
            else x = a ∧ x' = a := by
  refine ⟨hr.isCorrect_eq h p c, hr.isConsistent_eq c, hr.isCertified_eq h p c,
    hr.isSpendable_eq c, hr.admissionOfAll_iff h c, ?_⟩
  intro d d' s s' hf hadds hf' hadds'
  obtain ⟨previous, hp, -, -, hposts⟩ := Chain.posts_of_finalizeBlock hf hadds
  obtain ⟨previous', hp', -, -, hposts'⟩ := Chain.posts_of_finalizeBlock hf' hadds'
  rw [hr.previousBlockId] at hp'
  obtain rfl : previous = previous' := Option.some.inj (hp.symm.trans hp')
  refine ⟨hposts'.height.trans (hr.height.trans hposts.height.symm),
    hposts'.keys_eq.trans hposts.keys_eq.symm, previous, hp, hposts.keys_eq.symm, fun id a ha => ?_⟩
  obtain ⟨x, x', hx, hx', hstanding, hrest⟩ := hposts.agree hposts' hr.transfers_perm ha
  simp only [Account.standing, Prod.mk.injEq] at hstanding
  exact ⟨x, x', hx, hx', hstanding.1, hstanding.2.1, hstanding.2.2, hrest⟩

open Payment (payer payee)

/-- Three transfers in two orders. The payee has as much in both, but another stamp. -/
theorem Block.Reorders.immaterial_exchange :
    let m : Payment := { Payment.sample with hasher := .numeral }
    let b := Payment.exchange [(payer, payee, 30), (payee, payee, 60), (payee, payer, 1)]
    let b' := Payment.exchange [(payee, payer, 1), (payer, payee, 30), (payee, payee, 60)]
    b'.Reorders b ∧ ∃ d s d' s', m.alone.finalizeBlock m.hasher b = .ok (d, s) ∧ d ≠ m.alone ∧
      m.alone.finalizeBlock m.hasher b' = .ok (d', s') ∧ d' ≠ m.alone ∧
      ∃ x x', s.account? payee = some x ∧ s'.account? payee = some x' ∧ x'.balance = x.balance ∧
        x'.lastBlockId ≠ x.lastBlockId := by
  intro m b b'
  have hr : b'.Reorders b := ⟨rfl, rfl, .map _ (by decide)⟩
  have hsize : ((m.alone.finalizeBlock m.hasher b).toOption.map fun r => r.1.size) = some 2 := by
    decide +kernel
  have hsize' : ((m.alone.finalizeBlock m.hasher b').toOption.map fun r => r.1.size) = some 2 := by
    decide +kernel
  have hne : m.hasher.blockId b' ≠ m.hasher.blockId b := by decide +kernel
  obtain ⟨d, s, hf, hadds⟩ := Payment.exists_finalizeBlock_of_size hsize
  obtain ⟨d', s', hf', hadds'⟩ := Payment.exists_finalizeBlock_of_size hsize'
  obtain ⟨-, -, -, -, -, hsnapshots⟩ :=
    Block.Reorders.immaterial hr m.hasher Payment.parameters m.alone
  obtain ⟨-, -, previous, hprevious, -, haccounts⟩ := hsnapshots d d' s s' hf hadds hf' hadds'
  obtain rfl : m.genesis = previous :=
    Option.some.inj (m.snapshot?_ofGenesis.symm.trans hprevious)
  obtain ⟨x, x', hx, hx', -, -, -, hbalance, hstamp⟩ := haccounts payee _ m.account?_payee
  have hparty : isParty b.transfers payee = true := by decide
  rw [if_pos hparty] at hstamp
  refine ⟨hr, d, s, d', s', hf, hadds, hf', hadds', x, x', hx, hx', hbalance, ?_⟩
  rw [hstamp.1, hstamp.2]
  exact hne

/-- In a third order the payee has not got yet what it spends, and the block is not finalized. -/
example :
    (Payment.sample.alone.finalizeBlock Payment.sample.hasher
      (Payment.exchange [(payee, payee, 60), (payer, payee, 30), (payee, payer, 1)])).toOption.isNone =
      true := by
  decide +kernel

end StakeLedger
