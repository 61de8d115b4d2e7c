import StakeLedger.Proofs.Spending

/-!
# The sum of all balances

If the balances of a genesis snapshot sum up to what 64 bits hold, they do so in every snapshot
of a run, and the transfers of an admitted block can be carried out: between the withdrawal and
the payment of a transfer, the sum of all balances is short of its amount, so there is room for
it on every account.

* `SnapshotBuilder.CarriedOut` is one step of the transfers of a block: both parties are found,
  the withdrawal and the payment are exact, and no balance is above a bound.
* `carriedOut_of_covers` says so of each transfer of a list, whenever each sender is found and
  covers its amount at first and sends once.
* `Engine.conserved_and_carriedOut` is what follows for runs.
-/

namespace StakeLedger

open Transfers

namespace SnapshotBuilder

/-- The transfer `tx` makes `b'` of `b`, and the withdrawal alone makes `between`: both parties
are found, neither balance leaves its range, and no balance is ever above `bound`. -/
structure CarriedOut (bound : Nat) (blockId : Identifier) (tx : Transaction)
    (b between b' : SnapshotBuilder) : Prop where
  sender : ∃ a, b.account? tx.sender = some a ∧ tx.amount ≤ a.balance
  debit : b.debit blockId tx.sender tx.amount = .ok between
  receiver : ∃ a, between.account? tx.receiver = some a ∧
    a.balance.toNat + tx.amount.toNat < UInt64.size
  credit : between.credit blockId tx.receiver tx.amount = .ok b'
  bounded : ∀ s ∈ [b, between, b'], ∀ a ∈ s.accounts.items, a.balance.toNat ≤ bound

variable {b b' between : SnapshotBuilder} {blockId : Identifier} {tx : Transaction}
  {txs : List Transaction} {bound : Nat}

theorem CarriedOut.transfer_eq (h : CarriedOut bound blockId tx b between b') :
    b.transfer blockId tx = .ok b' :=
  transfer_eq_ok_iff.mpr ⟨between, h.debit, h.credit⟩

/-- What is carried out after other transfers is the next step of the list. -/
theorem CarriedOut.transferAll_append {b₀ : SnapshotBuilder}
    (h : CarriedOut bound blockId tx b between b') (hb : b₀.transferAll blockId txs = .ok b) :
    b₀.transferAll blockId (txs ++ [tx]) = .ok b' :=
  transferAll_append_eq_ok_iff.mpr ⟨b, hb, transferAll_singleton.trans h.transfer_eq⟩

theorem account?_debit_isSome (h : b.debit blockId tx.sender tx.amount = .ok between)
    {id : Identifier} (hid : ∃ a, b.account? id = some a) : ∃ a, between.account? id = some a := by
  obtain ⟨s, hs, -, rfl⟩ := debit_eq_ok_iff.mp h
  rw [account?_replace]
  split
  · exact ⟨_, rfl⟩
  · exact hid

/-- **A covered transfer is carried out** where the sum of all balances is within 64 bits. -/
theorem carriedOut_of_supply (hbound : bound < UInt64.size) (hsupply : b.accounts.supply = bound)
    (hsender : ∃ a, b.account? tx.sender = some a ∧ tx.amount ≤ a.balance)
    (hreceiver : ∃ a, b.account? tx.receiver = some a) :
    ∃ between b', CarriedOut bound blockId tx b between b' := by
  obtain ⟨s, hs, hle⟩ := hsender
  have hd : b.debit blockId tx.sender tx.amount = .ok (b.replace (s.debited blockId tx.amount)) :=
    debit_eq_ok_iff.mpr ⟨s, hs, hle, rfl⟩
  obtain ⟨r, hr⟩ := account?_debit_isSome hd hreceiver
  -- what the withdrawal took out is the room that the payment needs
  have hshort := supply_debit hd
  have hroom := balance_le_supply hr
  have hlt : r.balance.toNat + tx.amount.toNat < UInt64.size := by omega
  have hc : (b.replace (s.debited blockId tx.amount)).credit blockId tx.receiver tx.amount =
      .ok ((b.replace (s.debited blockId tx.amount)).replace (r.credited blockId tx.amount)) :=
    credit_eq_ok_iff.mpr ⟨r, hr, hlt, rfl⟩
  have hfull := supply_credit hc
  refine ⟨_, _, ⟨s, hs, hle⟩, hd, ⟨r, hr, hlt⟩, hc, fun t ht a ha => ?_⟩
  have hab := Accounts.balance_le_supply ha
  rcases List.mem_cons.mp ht with rfl | ht
  · omega
  rcases List.mem_cons.mp ht with rfl | ht
  · omega
  obtain rfl := List.mem_singleton.mp ht
  omega

theorem account?_transferAll_isSome (h : b.transferAll blockId txs = .ok b') {id : Identifier}
    (hid : ∃ a, b.account? id = some a) : ∃ a, b'.account? id = some a := by
  obtain ⟨a, ha⟩ := hid
  obtain ⟨a', ha', -⟩ := exists_of_rel_some (settled_transferAll h id) ha
  exact ⟨a', ha'⟩

/-- Transfers of others take nothing from an account. -/
theorem covered_transferAll (h : b.transferAll blockId txs = .ok b')
    (hs : tx.sender ∉ txs.map (·.sender))
    (hcov : ∃ a, b.account? tx.sender = some a ∧ tx.amount ≤ a.balance) :
    ∃ a, b'.account? tx.sender = some a ∧ tx.amount ≤ a.balance := by
  obtain ⟨a, ha, hle⟩ := hcov
  have hsent : sent txs tx.sender = 0 :=
    sent_eq_zero fun other ho he => hs (List.mem_map.mpr ⟨other, ho, he⟩)
  obtain ⟨a', ha', hb⟩ := exists_of_rel_some (balance_transferAll h tx.sender) ha
  have hle' := UInt64.le_iff_toNat_le.mp hle
  exact ⟨a', ha', UInt64.le_iff_toNat_le.mpr (by omega)⟩

/-- What a list of transfers needs to be carried out: no two have the same sender, each sender
is found and covers its amount, and each receiver is found. -/
structure Covers (b : SnapshotBuilder) (txs : List Transaction) : Prop where
  senders_nodup : (txs.map (·.sender)).Nodup
  sender : ∀ tx ∈ txs, ∃ a, b.account? tx.sender = some a ∧ tx.amount ≤ a.balance
  receiver : ∀ tx ∈ txs, ∃ a, b.account? tx.receiver = some a

theorem Covers.of_append {more : List Transaction} (h : b.Covers (txs ++ more)) : b.Covers txs where
  senders_nodup := by
    have hn := h.senders_nodup
    rw [List.map_append] at hn
    exact hn.of_append_left
  sender tx htx := h.sender tx (List.mem_append_left _ htx)
  receiver tx htx := h.receiver tx (List.mem_append_left _ htx)

/-- The last of a list of covered transfers is carried out after the others. -/
theorem carriedOut_of_transferAll (hbound : b.accounts.supply < UInt64.size)
    (hc : b.Covers (txs ++ [tx])) (h : b.transferAll blockId txs = .ok b') :
    ∃ between b'', CarriedOut b.accounts.supply blockId tx b' between b'' := by
  have hn := hc.senders_nodup
  have htx : tx ∈ txs ++ [tx] := List.mem_append_right _ (List.mem_singleton_self tx)
  rw [List.map_append, List.map_singleton, List.nodup_append'] at hn
  have hs : tx.sender ∉ txs.map (·.sender) := fun hm => hn.2.2 hm (List.mem_singleton_self _)
  exact carriedOut_of_supply hbound (supply_transferAll h)
    (covered_transferAll h hs (hc.sender tx htx))
    (account?_transferAll_isSome h (hc.receiver tx htx))

theorem exists_transferAll_of_covers (hbound : b.accounts.supply < UInt64.size)
    (hc : b.Covers txs) :
    ∃ b', b.transferAll blockId txs = .ok b' := by
  induction txs using List.reverseRecOn with
  | nil => exact ⟨b, rfl⟩
  | append_singleton txs tx ih =>
    obtain ⟨b₁, h₁⟩ := ih hc.of_append
    obtain ⟨between, b₂, h₂⟩ := carriedOut_of_transferAll hbound hc h₁
    exact ⟨b₂, h₂.transferAll_append h₁⟩

/-- **Every transfer of a covered list is carried out when its turn comes.** -/
theorem carriedOut_of_covers {before after : List Transaction}
    (hbound : b.accounts.supply < UInt64.size) (hc : b.Covers (before ++ tx :: after)) :
    ∃ b₁ between b₂, b.transferAll blockId before = .ok b₁ ∧
      CarriedOut b.accounts.supply blockId tx b₁ between b₂ ∧
      b.transferAll blockId (before ++ [tx]) = .ok b₂ := by
  rw [← List.singleton_append, ← List.append_assoc] at hc
  obtain ⟨b₁, h₁⟩ : ∃ b₁, b.transferAll blockId before = .ok b₁ :=
    exists_transferAll_of_covers hbound hc.of_append.of_append
  obtain ⟨between, b₂, h₂⟩ := carriedOut_of_transferAll hbound hc.of_append h₁
  exact ⟨b₁, between, b₂, h₁, h₂, h₂.transferAll_append h₁⟩

end SnapshotBuilder

/-- The transfers of an admitted block are covered by the accounts that it starts from. -/
theorem Block.covers_of_admission {b : Block} {h : Hasher} {p : Parameters} {c : Chain}
    (hb : b.admission h p c = .ok (.ok ())) :
    ∃ previous, c.snapshot? b.previousBlockId = some previous ∧
      ∀ blockId height, (previous.successor blockId height).Covers b.transfers := by
  obtain ⟨-, -, -, -, -, hspend⟩ := admission_eq_ok_iff.mp hb
  obtain ⟨previous, hp, -, hall⟩ := isSpendable_eq_true_iff.mp hspend
  refine ⟨previous, hp, fun blockId height => ⟨transfers_senders_nodup hb, ?_, ?_⟩⟩
  all_goals
    intro tx htx
    obtain ⟨v, hv, rfl⟩ := List.mem_map.mp htx
    obtain ⟨receiver, sender, _, _, hr, hs, -, -, -, hle⟩ :=
      isSpendableAt_eq_true_iff.mp (hall v hv)
  · exact ⟨sender, hs, hle⟩
  · exact ⟨receiver, hr⟩

namespace Engine

/-- **Runs conserve the sum of all balances.** If it is within 64 bits at the genesis, every
snapshot of a run has the same accounts with the same stakes and public keys and the same sum,
and each transfer of an admitted block is carried out exactly when its turn comes, with no
balance above the sum. What it leaves is what the transfers up to it come to. -/
theorem conserved_and_carriedOut (e : Engine) (genesis : AccountSnapshot)
    (inputs : List EncodedEntity) (hsupply : genesis.supply < UInt64.size) :
    (∀ s ∈ (e.run (.ofGenesis genesis) inputs).snapshots,
      s.all.map Account.standing = genesis.all.map Account.standing ∧ s.supply = genesis.supply) ∧
    ∀ (p : Parameters) (b : Block),
      b.admission e.hasher p (e.run (.ofGenesis genesis) inputs) = .ok (.ok ()) →
      ∃ previous, (e.run (.ofGenesis genesis) inputs).snapshot? b.previousBlockId = some previous ∧
        ∀ before tx after, b.transfers = before ++ tx :: after → ∃ b₁ between b₂,
          (previous.successor (e.hasher.blockId b) b.height).transferAll (e.hasher.blockId b)
            before = .ok b₁ ∧
          SnapshotBuilder.CarriedOut genesis.supply (e.hasher.blockId b) tx b₁ between b₂ ∧
          (previous.successor (e.hasher.blockId b) b.height).transferAll (e.hasher.blockId b)
            (before ++ [tx]) = .ok b₂ := by
  have hrun := extends_run e genesis inputs
  refine ⟨hrun.standings_and_supply, fun p b hb => ?_⟩
  obtain ⟨previous, hp, hcov⟩ := Block.covers_of_admission hb
  refine ⟨previous, hp, fun before tx after htxs => ?_⟩
  obtain ⟨-, hsame⟩ := hrun.standings_and_supply previous (Chain.mem_of_snapshot? hp)
  have hc := hcov (e.hasher.blockId b) b.height
  rw [htxs] at hc
  rw [← hsame] at hsupply ⊢
  exact SnapshotBuilder.carriedOut_of_covers hsupply hc

/-- A run that has finalized two transfers conserves 150, and both transfers of the next block are
carried out, one after the other. -/
theorem conserved_and_carriedOut_sample :
    let m := Payment.series
    let inputs : List EncodedEntity := m.history.map .ofEntity
    let c := m.engine.run (.ofGenesis m.genesis) inputs
    let blockId := m.hasher.blockId m.settled
    m.genesis.supply < UInt64.size ∧
      m.engine.accepted (.ofGenesis m.genesis) inputs =
        [Payment.first, m.detour, m.delayed, m.pause] ∧
      m.settled.admission m.hasher Payment.parameters c = .ok (.ok ()) ∧
      (∀ s ∈ c.snapshots, s.all.map Account.standing = m.genesis.all.map Account.standing ∧
        s.supply = m.genesis.supply) ∧
      ∃ previous b₁ between₁ b₂ between₂ b₃,
        c.snapshot? (m.hasher.blockId m.pause) = some previous ∧
        (previous.successor blockId 5).transferAll blockId [] = .ok b₁ ∧
        SnapshotBuilder.CarriedOut m.genesis.supply blockId m.again b₁ between₁ b₂ ∧
        (previous.successor blockId 5).transferAll blockId [m.again] = .ok b₂ ∧
        SnapshotBuilder.CarriedOut m.genesis.supply blockId m.change b₂ between₂ b₃ ∧
        (previous.successor blockId 5).transferAll blockId [m.again, m.change] = .ok b₃ := by
  intro m inputs c blockId
  have hsupply : m.genesis.supply < UInt64.size := by decide
  have hb : m.settled.admission m.hasher Payment.parameters c = .ok (.ok ()) :=
    (accepts?_eq_some_iff.mp Payment.accepts?_settled).2.1
  obtain ⟨hsnapshots, hblocks⟩ := conserved_and_carriedOut m.engine m.genesis inputs hsupply
  obtain ⟨previous, hp, hsteps⟩ := hblocks Payment.parameters m.settled hb
  obtain ⟨b₁, between₁, b₂, h₁, hagain, h₂⟩ := hsteps [] m.again [m.change] rfl
  obtain ⟨b₂', between₂, b₃, h₂', hchange, h₃⟩ := hsteps [m.again] m.change [] rfl
  obtain rfl : b₂ = b₂' := Except.ok.inj (h₂.symm.trans h₂')
  exact ⟨hsupply, Payment.accepted_history, hb, hsnapshots, previous, b₁, between₁, b₂, between₂,
    b₃, hp, h₁, hagain, h₂, hchange, h₃⟩

end Engine

end StakeLedger
