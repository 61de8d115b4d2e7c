import StakeLedger.Proofs.Growth
import StakeLedger.Proofs.Payment

/-!
# What a finalized block makes of the accounts

Finalizing carries the transfers of a block out one after the other, on accounts that earlier ones
have changed already. What comes out is what a ledger says, as exact numbers: each balance is the
old one without all that the account sends and with all that it receives. This is so for every
block that is finalized in whatever chain, also one that nobody validated.

* `Chain.posts_of_finalizeBlock` says what finalizing a block does in any chain.
* `Chain.ledger_of_finalizeBlock` is the main statement, account by account.
-/

namespace StakeLedger

open Transfers

namespace Chain

variable {c c' : Chain} {h : Hasher} {b : Block} {previous next : AccountSnapshot}

theorem Posts.keys_eq (hp : Posts h b previous next) :
    next.accounts.keys = previous.accounts.keys := by
  have hkeys (s : AccountSnapshot) :
      s.accounts.keys = (s.all.map Account.standing).map Prod.fst := by
    rw [List.map_map]
    rfl
  rw [hkeys, hkeys, hp.standings]

/-- The exact balance of an account is what the transfers make of it. -/
theorem Posts.exists_account? (hp : Posts h b previous next) {id : Identifier} {a : Account}
    (ha : previous.account? id = some a) :
    ∃ a', next.account? id = some a' ∧ a'.standing = a.standing ∧
      (a'.balance.toNat : ℤ) =
        a.balance.toNat - sent b.transfers id + received b.transfers id ∧
      a'.lastBlockId = if isParty b.transfers id then h.blockId b else a.lastBlockId := by
  obtain ⟨a', ha', hs⟩ := exists_of_rel_some (hp.settled id) ha
  have hid : a.identifier = id := SortedBy.key_of_find? ha
  have hbalance := hs.balance
  have hlast := hs.lastBlockId
  rw [hid] at hbalance hlast
  exact ⟨a', ha', hs.standing, by omega, hlast⟩

/-- **What finalizing a block does.** It gives a snapshot that the chain has already, or adds one
that settles the accounts of the predecessor by the transfers of the block. -/
theorem posts_of_finalizeBlock (hf : c.finalizeBlock h b = .ok (c', next)) (hadds : c' ≠ c) :
    ∃ previous, c.snapshot? b.previousBlockId = some previous ∧
      c.snapshot? next.blockId = none ∧ c' = c.extended next ∧ Posts h b previous next := by
  obtain ⟨previous, builder, hp, -, ht, ha⟩ := finalizeBlock_eq_ok_iff.mp hf
  refine ⟨previous, hp, ?_⟩
  rcases addSnapshot_cases c (builder.sealed h) with ⟨cause, he⟩ | ⟨t, he, -⟩ | ⟨he, hfresh⟩ <;>
    rw [he] at ha <;> cases ha
  · exact absurd rfl hadds
  · exact ⟨hfresh, rfl, posts_of_transferAll ht⟩

/-- **A finalized block is entered exactly.** Whenever finalizing a block adds a snapshot, this has
the block's identifier and height and the same accounts as the predecessor's, with the same stakes
and public keys. In exact numbers, each balance is the predecessor's less all that the account sends
in the block and with all that it receives, so the sum of all balances is the same. The sender and
the receiver of a transfer are stamped with the block, and nobody else. All snapshots that were in
the chain, the predecessor's too, stay as they are. -/
theorem ledger_of_finalizeBlock (hf : c.finalizeBlock h b = .ok (c', next)) (hadds : c' ≠ c) :
    ∃ previous, c.snapshot? b.previousBlockId = some previous ∧
      c.snapshot? (h.blockId b) = none ∧ c'.snapshot? (h.blockId b) = some next ∧
      (∀ id s, c.snapshot? id = some s → c'.snapshot? id = some s) ∧
      next.blockId = h.blockId b ∧ next.height = b.height ∧
      next.accounts.keys = previous.accounts.keys ∧
      (∀ id a, previous.account? id = some a → ∃ a', next.account? id = some a' ∧
        a'.stake = a.stake ∧ a'.publicKey = a.publicKey ∧
        (a'.balance.toNat : ℤ) =
          a.balance.toNat - sent b.transfers id + received b.transfers id ∧
        a'.lastBlockId = if isParty b.transfers id then h.blockId b else a.lastBlockId) ∧
      next.supply = previous.supply := by
  obtain ⟨previous, hprevious, hfresh, rfl, hposts⟩ := posts_of_finalizeBlock hf hadds
  refine ⟨previous, hprevious, hposts.blockId ▸ hfresh, ?_,
    fun id s => snapshot?_of_extended hfresh, hposts.blockId, hposts.height, hposts.keys_eq,
    fun id a ha => ?_, hposts.supply⟩
  · rw [snapshot?_extended, if_pos hposts.blockId]
  · obtain ⟨a', ha', hstanding, hbalance, hlast⟩ := hposts.exists_account? ha
    simp only [Account.standing, Prod.mk.injEq] at hstanding
    exact ⟨a', ha', hstanding.2.1, hstanding.2.2, hbalance, hlast⟩

end Chain

namespace Payment

/-- A block on the genesis, with transfers that nobody signed. -/
def exchange (transfers : List (Identifier × Identifier × UInt64)) : Block where
  previousBlockId := origin
  proposer := payee
  height := 1
  transactions := transfers.map fun (sender, receiver, amount) =>
    ⟨⟨origin, sender, receiver, amount, none⟩, []⟩
  signature := none

/-- The chain of the genesis alone. -/
def alone (m : Payment) : Chain := .ofGenesis m.genesis

/-- Whether a block on the genesis is finalized can be evaluated. -/
theorem exists_finalizeBlock_of_size {m : Payment} {b : Block}
    (hsize : ((m.alone.finalizeBlock m.hasher b).toOption.map fun r => r.1.size) = some 2) :
    ∃ c' next, m.alone.finalizeBlock m.hasher b = .ok (c', next) ∧ c' ≠ m.alone := by
  cases hf : m.alone.finalizeBlock m.hasher b with
  | error fault =>
    rw [hf] at hsize
    cases hsize
  | ok r =>
    rw [hf] at hsize
    refine ⟨r.1, r.2, rfl, fun heq => ?_⟩
    rw [Except.toOption, Option.map_some, heq] at hsize
    cases hsize

end Payment

namespace Chain

open Payment (payer payee)

/-- The payee spends what it got just before in the same block, to itself. -/
theorem ledger_of_finalizeBlock_exchange :
    let m := Payment.sample
    let b := Payment.exchange [(payer, payee, 30), (payee, payee, 60), (payee, payer, 1)]
    ∃ c' next, m.alone.finalizeBlock m.hasher b = .ok (c', next) ∧ c' ≠ m.alone ∧
      (∃ a, next.account? payer = some a ∧ (a.balance.toNat : ℤ) = 100 - 30 + 1) ∧
      (∃ a, next.account? payee = some a ∧ (a.balance.toNat : ℤ) = 50 - (60 + 1) + (30 + 60)) := by
  intro m b
  have hsize : ((m.alone.finalizeBlock m.hasher b).toOption.map fun r => r.1.size) = some 2 := by
    decide +kernel
  obtain ⟨c', next, hf, hadds⟩ := Payment.exists_finalizeBlock_of_size hsize
  obtain ⟨previous, hprevious, -, -, -, -, -, -, haccounts, -⟩ := ledger_of_finalizeBlock hf hadds
  obtain rfl : m.genesis = previous :=
    Option.some.inj (m.snapshot?_ofGenesis.symm.trans hprevious)
  obtain ⟨a, ha, -, -, hbalance, -⟩ := haccounts payer _ m.account?_payer
  obtain ⟨a', ha', -, -, hbalance', -⟩ := haccounts payee _ m.account?_payee
  exact ⟨c', next, hf, hadds, ⟨a, ha, hbalance⟩, ⟨a', ha', hbalance'⟩⟩

end Chain

end StakeLedger
