import Mathlib.Data.List.Induction
import StakeLedger.Chain
import StakeLedger.Proofs.Accounts

/-!
# Transfers

What a list of transfers makes of the accounts of a builder, when it goes through, and when it
does.

* `Transfers.sent` and `Transfers.received` are what an account pays and gets in a list of
  transfers, as exact numbers.
* `Settled` relates an account before a list of transfers to what it is afterwards. Whenever a
  list goes through, all accounts are settled (`settled_transferAll`), and the sum of all
  balances is what it was (`supply_transferAll`).
* A list goes through exactly if every transfer of it is affordable when its turn comes
  (`transferAll_isOk_iff`).
-/

namespace StakeLedger

/-! ## Related optional values

The account of an identifier before and after transfers: both are found or neither is. -/

section Rel

variable {α : Type} {R S T : α → α → Prop} {x y z : Option α} {a : α}

theorem exists_of_rel_some (h : Option.Rel R x y) (hx : x = some a) :
    ∃ a', y = some a' ∧ R a a' := by
  subst hx
  cases h with
  | some hr => exact ⟨_, rfl, hr⟩

theorem eq_none_of_rel_none (h : Option.Rel R x y) (hx : x = none) : y = none := by
  subst hx
  cases h
  rfl

theorem rel_of_rel (h : Option.Rel R x y) (hRS : ∀ a a', x = some a → R a a' → S a a') :
    Option.Rel S x y := by
  cases h with
  | none => exact .none
  | some hr => exact .some (hRS _ _ rfl hr)

theorem rel_trans (h : Option.Rel R x y) (h' : Option.Rel S y z)
    (hT : ∀ a b c, R a b → S b c → T a c) :
    Option.Rel T x z := by
  cases h with
  | none => cases h'; exact .none
  | some hr => cases h' with | some hs => exact .some (hT _ _ _ hr hs)

theorem exists_some_iff_of_rel {P Q : α → Prop} (h : Option.Rel R x y)
    (hPQ : ∀ a a', R a a' → (P a ↔ Q a')) :
    (∃ a, x = some a ∧ P a) ↔ ∃ a', y = some a' ∧ Q a' := by
  cases h with
  | none => simp
  | some hr => simpa using hPQ _ _ hr

end Rel

/-! ## What a list of transfers moves -/

namespace Transfers

/-- What an account pays in a list of transfers. -/
def sent (txs : List Transaction) (id : Identifier) : Nat :=
  (txs.map fun tx => if tx.sender = id then tx.amount.toNat else 0).sum

/-- What an account gets in a list of transfers. -/
def received (txs : List Transaction) (id : Identifier) : Nat :=
  (txs.map fun tx => if tx.receiver = id then tx.amount.toNat else 0).sum

/-- Whether an account is a party of a transfer of a list. -/
def isParty (txs : List Transaction) (id : Identifier) : Bool :=
  txs.any fun tx => tx.sender = id || tx.receiver = id

variable (txs more : List Transaction) (tx : Transaction) (id : Identifier)

@[simp]
theorem sent_nil : sent [] id = 0 := rfl

@[simp]
theorem received_nil : received [] id = 0 := rfl

@[simp]
theorem isParty_nil : isParty [] id = false := rfl

@[simp]
theorem sent_singleton : sent [tx] id = if tx.sender = id then tx.amount.toNat else 0 := by
  simp [sent]

@[simp]
theorem received_singleton :
    received [tx] id = if tx.receiver = id then tx.amount.toNat else 0 := by
  simp [received]

@[simp]
theorem sent_append : sent (txs ++ more) id = sent txs id + sent more id := by
  simp [sent]

@[simp]
theorem received_append : received (txs ++ more) id = received txs id + received more id := by
  simp [received]

@[simp]
theorem isParty_append : isParty (txs ++ more) id = (isParty txs id || isParty more id) := by
  simp [isParty]

theorem isParty_eq_true_iff :
    isParty txs id = true ↔ ∃ tx ∈ txs, tx.sender = id ∨ tx.receiver = id := by
  simp [isParty]

theorem sent_eq_zero {txs : List Transaction} {id : Identifier} (h : ∀ tx ∈ txs, tx.sender ≠ id) :
    sent txs id = 0 := by
  refine List.sum_eq_zero fun n hn => ?_
  obtain ⟨tx, htx, rfl⟩ := List.mem_map.mp hn
  rw [if_neg (h tx htx)]

theorem received_eq_zero {txs : List Transaction} {id : Identifier}
    (h : ∀ tx ∈ txs, tx.receiver ≠ id) :
    received txs id = 0 := by
  refine List.sum_eq_zero fun n hn => ?_
  obtain ⟨tx, htx, rfl⟩ := List.mem_map.mp hn
  rw [if_neg (h tx htx)]

end Transfers

open Transfers

/-- An account before and after a list of transfers of a block: the balance is what the
transfers make of it in exact numbers, a party is stamped with the block, and nothing else
changes. -/
structure Settled (blockId : Identifier) (txs : List Transaction) (a a' : Account) : Prop where
  standing : a'.standing = a.standing
  balance : a'.balance.toNat + sent txs a.identifier = a.balance.toNat + received txs a.identifier
  lastBlockId : a'.lastBlockId = if isParty txs a.identifier then blockId else a.lastBlockId

namespace Settled

variable {blockId : Identifier} {txs more : List Transaction} {a a' a'' : Account}

theorem identifier (h : Settled blockId txs a a') : a'.identifier = a.identifier :=
  congrArg Prod.fst h.standing

theorem refl (blockId : Identifier) (a : Account) : Settled blockId [] a a :=
  ⟨rfl, rfl, rfl⟩

theorem trans (h : Settled blockId txs a a') (h' : Settled blockId more a' a'') :
    Settled blockId (txs ++ more) a a'' := by
  have hb := h.balance
  have hb' := h'.balance
  have hl' := h'.lastBlockId
  rw [h.identifier] at hb' hl'
  refine ⟨h'.standing.trans h.standing, ?_, ?_⟩
  · rw [sent_append, received_append]
    omega
  · rw [hl', h.lastBlockId, isParty_append]
    cases isParty more a.identifier <;> cases isParty txs a.identifier <;> rfl

/-- An account that is no party stays as it was. -/
theorem eq_of_not_isParty (h : Settled blockId txs a a') (hp : isParty txs a.identifier = false) :
    a' = a := by
  have hno : ∀ tx ∈ txs, tx.sender ≠ a.identifier ∧ tx.receiver ≠ a.identifier := by
    simpa [isParty] using hp
  have hs := h.standing
  have hb := h.balance
  have hl := h.lastBlockId
  rw [sent_eq_zero fun tx htx => (hno tx htx).1,
    received_eq_zero fun tx htx => (hno tx htx).2] at hb
  rw [hp, if_neg Bool.false_ne_true] at hl
  obtain ⟨identifier, stake, publicKey, lastBlockId, balance⟩ := a
  obtain ⟨identifier', stake', publicKey', lastBlockId', balance'⟩ := a'
  simp only [Account.standing, Prod.mk.injEq] at hs
  obtain ⟨rfl, rfl, rfl⟩ := hs
  simp only [Nat.add_zero, UInt64.toNat_inj] at hb
  simp only at hl
  subst hb hl
  rfl

end Settled

/-! ## Withdrawals and payments -/

namespace Account

/-- The account after a withdrawal. -/
def debited (a : Account) (blockId : Identifier) (amount : UInt64) : Account :=
  { a with balance := a.balance - amount, lastBlockId := blockId }

/-- The account after a payment. -/
def credited (a : Account) (blockId : Identifier) (amount : UInt64) : Account :=
  { a with balance := a.balance + amount, lastBlockId := blockId }

variable (a : Account) (blockId : Identifier) (amount : UInt64)

@[simp]
theorem standing_debited : (a.debited blockId amount).standing = a.standing := rfl

@[simp]
theorem standing_credited : (a.credited blockId amount).standing = a.standing := rfl

@[simp]
theorem identifier_debited : (a.debited blockId amount).identifier = a.identifier := rfl

@[simp]
theorem identifier_credited : (a.credited blockId amount).identifier = a.identifier := rfl

@[simp]
theorem lastBlockId_debited : (a.debited blockId amount).lastBlockId = blockId := rfl

@[simp]
theorem lastBlockId_credited : (a.credited blockId amount).lastBlockId = blockId := rfl

variable {a amount}

theorem balance_debited (h : amount ≤ a.balance) :
    (a.debited blockId amount).balance.toNat + amount.toNat = a.balance.toNat := by
  have hle := UInt64.le_iff_toNat_le.mp h
  rw [debited, UInt64.toNat_sub_of_le _ _ h]
  omega

theorem balance_credited (h : a.balance.toNat + amount.toNat < UInt64.size) :
    (a.credited blockId amount).balance.toNat = a.balance.toNat + amount.toNat := by
  rw [credited, UInt64.toNat_add]
  exact Nat.mod_eq_of_lt h

end Account

namespace SnapshotBuilder

variable {b b' : SnapshotBuilder} {blockId : Identifier} {tx : Transaction}
  {txs more : List Transaction}

theorem account?_debited {id : Identifier} {a : Account} (ha : b.account? id = some a)
    (blockId : Identifier) (amount : UInt64) :
    b.account? (a.debited blockId amount).identifier = some a := by
  rw [Account.identifier_debited, identifier_of_account? ha, ha]

theorem account?_credited {id : Identifier} {a : Account} (ha : b.account? id = some a)
    (blockId : Identifier) (amount : UInt64) :
    b.account? (a.credited blockId amount).identifier = some a := by
  rw [Account.identifier_credited, identifier_of_account? ha, ha]

/-- A withdrawal needs the account and the amount on it. -/
theorem debit_eq_ok_iff {sender : Identifier} {amount : UInt64} :
    b.debit blockId sender amount = .ok b' ↔
      ∃ a, b.account? sender = some a ∧ amount ≤ a.balance ∧
      b' = b.replace (a.debited blockId amount) := by
  unfold debit
  cases ha : b.account? sender with
  | none => simp
  | some a =>
    have hu : b.update (a.debited blockId amount) = .ok (b.replace (a.debited blockId amount)) :=
      update_of_account? (account?_debited ha blockId amount)
    rw [Account.debited] at hu
    by_cases hlt : a.balance < amount
    · simp [hlt, UInt64.not_le.mpr hlt]
    · simp [hlt, UInt64.not_lt.mp hlt, hu, eq_comm, Account.debited]

/-- A payment needs the account and room for the amount on it. -/
theorem credit_eq_ok_iff {receiver : Identifier} {amount : UInt64} :
    b.credit blockId receiver amount = .ok b' ↔
      ∃ a, b.account? receiver = some a ∧ a.balance.toNat + amount.toNat < UInt64.size ∧
        b' = b.replace (a.credited blockId amount) := by
  unfold credit
  cases ha : b.account? receiver with
  | none => simp
  | some a =>
    have hu : b.update (a.credited blockId amount) = .ok (b.replace (a.credited blockId amount)) :=
      update_of_account? (account?_credited ha blockId amount)
    rw [Account.credited] at hu
    by_cases hlt : a.balance.toNat + amount.toNat < UInt64.size
    · simp only [if_pos hlt, hu]
      simp [hlt, eq_comm, Account.credited]
    · simp only [if_neg hlt]
      simp [hlt]

theorem transfer_eq_ok_iff :
    b.transfer blockId tx = .ok b' ↔
      ∃ b₁, b.debit blockId tx.sender tx.amount = .ok b₁ ∧
      b₁.credit blockId tx.receiver tx.amount = .ok b' := by
  unfold transfer
  cases b.debit blockId tx.sender tx.amount <;> simp

theorem transferAll_append_eq_ok_iff :
    b.transferAll blockId (txs ++ more) = .ok b' ↔
      ∃ b₁, b.transferAll blockId txs = .ok b₁ ∧ b₁.transferAll blockId more = .ok b' := by
  induction txs generalizing b with
  | nil => simp [transferAll]
  | cons tx rest ih =>
    simp only [List.cons_append, transferAll]
    cases b.transfer blockId tx with
    | error e => simp
    | ok b₁ => exact ih

theorem transferAll_singleton : b.transferAll blockId [tx] = b.transfer blockId tx := by
  simp only [transferAll]
  cases b.transfer blockId tx <;> rfl

/-! ## What transfers do when they go through -/

/-- **A transfer settles all accounts.** -/
theorem settled_transfer (h : b.transfer blockId tx = .ok b') (id : Identifier) :
    Option.Rel (Settled blockId [tx]) (b.account? id) (b'.account? id) := by
  obtain ⟨b₁, hd, hc⟩ := transfer_eq_ok_iff.mp h
  obtain ⟨s, hs, hle, rfl⟩ := debit_eq_ok_iff.mp hd
  obtain ⟨r, hr, hlt, rfl⟩ := credit_eq_ok_iff.mp hc
  have hsb := Account.balance_debited blockId hle
  have hrb := Account.balance_credited blockId hlt
  have hsi := identifier_of_account? hs
  have hri := identifier_of_account? hr
  rw [account?_replace, Account.identifier_debited, hsi] at hr
  rw [account?_replace, Account.identifier_credited, hri, account?_replace,
    Account.identifier_debited, hsi]
  by_cases hrid : tx.receiver = id
  · subst hrid
    rw [if_pos rfl]
    by_cases hsr : tx.sender = tx.receiver
    · -- a transfer to oneself: the payment finds the account that the withdrawal left
      rw [if_pos hsr, Option.some.injEq] at hr
      subst hr
      rw [← hsr, hs]
      refine .some ⟨rfl, ?_, ?_⟩
      · simp only [sent_singleton, received_singleton, hsi, hsr, if_true]
        omega
      · simp [isParty, hsi]
    · rw [if_neg hsr] at hr
      rw [hr]
      refine .some ⟨rfl, ?_, ?_⟩
      · simp only [sent_singleton, received_singleton, hri, hsr, if_true, if_false]
        omega
      · simp [isParty, hri]
  · rw [if_neg hrid]
    by_cases hsid : tx.sender = id
    · subst hsid
      rw [if_pos rfl, hs]
      refine .some ⟨rfl, ?_, ?_⟩
      · simp only [sent_singleton, received_singleton, hsi, hrid, if_true, if_false]
        omega
      · simp [isParty, hsi]
    · rw [if_neg hsid]
      cases ha : b.account? id with
      | none => exact .none
      | some a =>
        have hai := identifier_of_account? ha
        refine .some ⟨rfl, ?_, ?_⟩
        · simp only [sent_singleton, received_singleton, hai, hsid, hrid, if_false]
        · simp [isParty, hai, hsid, hrid]

/-- **A list of transfers settles all accounts.** -/
theorem settled_transferAll (h : b.transferAll blockId txs = .ok b') (id : Identifier) :
    Option.Rel (Settled blockId txs) (b.account? id) (b'.account? id) := by
  induction txs generalizing b with
  | nil =>
    simp only [transferAll, Except.ok.injEq] at h
    subst h
    cases b.account? id with
    | none => exact .none
    | some a => exact .some (.refl blockId a)
  | cons tx rest ih =>
    rw [← List.singleton_append] at h ⊢
    obtain ⟨b₁, h₁, h₂⟩ := transferAll_append_eq_ok_iff.mp h
    have hfirst := settled_transfer (transferAll_singleton ▸ h₁) id
    exact rel_trans hfirst (ih h₂) fun _ _ _ hs₁ hs₂ => hs₁.trans hs₂

/-- What every replacement of an account by one of the same standing keeps, a list of transfers
keeps. -/
theorem transferAll_preserves {P : SnapshotBuilder → Prop}
    (hP : ∀ {b : SnapshotBuilder} {a old : Account}, b.account? a.identifier = some old →
      a.standing = old.standing → P b → P (b.replace a))
    (h : b.transferAll blockId txs = .ok b') (hb : P b) : P b' := by
  induction txs generalizing b with
  | nil =>
    simp only [transferAll, Except.ok.injEq] at h
    exact h ▸ hb
  | cons tx rest ih =>
    rw [← List.singleton_append] at h
    obtain ⟨b₂, h₁, h₂⟩ := transferAll_append_eq_ok_iff.mp h
    obtain ⟨b₁, hd, hc⟩ := transfer_eq_ok_iff.mp (transferAll_singleton ▸ h₁)
    obtain ⟨s, hs, -, rfl⟩ := debit_eq_ok_iff.mp hd
    obtain ⟨r, hr, -, rfl⟩ := credit_eq_ok_iff.mp hc
    have hbetween := hP (account?_debited hs blockId tx.amount) rfl hb
    exact ih h₂ (hP (account?_credited hr blockId tx.amount) rfl hbetween)

theorem blockId_transferAll (h : b.transferAll blockId txs = .ok b') : b'.blockId = b.blockId :=
  transferAll_preserves (P := fun c => c.blockId = b.blockId) (fun _ _ hc => hc) h rfl

theorem height_transferAll (h : b.transferAll blockId txs = .ok b') : b'.height = b.height :=
  transferAll_preserves (P := fun c => c.height = b.height) (fun _ _ hc => hc) h rfl

/-- The identifiers, stakes and public keys stay, and in the same order. -/
theorem standings_transferAll (h : b.transferAll blockId txs = .ok b') :
    b'.accounts.items.map Account.standing = b.accounts.items.map Account.standing :=
  transferAll_preserves
    (P := fun c => c.accounts.items.map Account.standing = b.accounts.items.map Account.standing)
    (fun ha hs hc => (standings_replace ha hs).trans hc) h rfl

/-- A withdrawal takes its amount out of the sum of all balances. -/
theorem supply_debit {sender : Identifier} {amount : UInt64}
    (h : b.debit blockId sender amount = .ok b') :
    b'.accounts.supply + amount.toNat = b.accounts.supply := by
  obtain ⟨a, ha, hle, rfl⟩ := debit_eq_ok_iff.mp h
  have hb := Account.balance_debited blockId hle
  have hs := supply_replace (account?_debited ha blockId amount)
  omega

/-- A payment adds its amount to the sum of all balances. -/
theorem supply_credit {receiver : Identifier} {amount : UInt64}
    (h : b.credit blockId receiver amount = .ok b') :
    b'.accounts.supply = b.accounts.supply + amount.toNat := by
  obtain ⟨a, ha, hlt, rfl⟩ := credit_eq_ok_iff.mp h
  have hb := Account.balance_credited blockId hlt
  have hs := supply_replace (account?_credited ha blockId amount)
  omega

/-- **Transfers conserve the sum of all balances.** -/
theorem supply_transferAll (h : b.transferAll blockId txs = .ok b') :
    b'.accounts.supply = b.accounts.supply := by
  induction txs generalizing b with
  | nil =>
    simp only [transferAll, Except.ok.injEq] at h
    rw [h]
  | cons tx rest ih =>
    rw [← List.singleton_append] at h
    obtain ⟨b₂, h₁, h₂⟩ := transferAll_append_eq_ok_iff.mp h
    obtain ⟨b₁, hd, hc⟩ := transfer_eq_ok_iff.mp (transferAll_singleton ▸ h₁)
    have hd' := supply_debit hd
    have hc' := supply_credit hc
    have hr := ih h₂
    omega

end SnapshotBuilder

/-! ## When transfers go through -/

/-- A transfer after others of a list is affordable: the sender and the receiver are found, and
with the balances that the others leave them the sender covers the amount and the receiver has
room for it. -/
structure Accounts.Affords (s : Accounts) (before : List Transaction) (tx : Transaction) :
    Prop where
  sender : ∃ a, s.find? tx.sender = some a ∧
    sent (before ++ [tx]) tx.sender ≤ a.balance.toNat + received before tx.sender
  receiver : ∃ a, s.find? tx.receiver = some a ∧
    a.balance.toNat + received (before ++ [tx]) tx.receiver <
      UInt64.size + sent (before ++ [tx]) tx.receiver

namespace SnapshotBuilder

variable {b b' : SnapshotBuilder} {blockId : Identifier} {tx : Transaction}
  {txs more : List Transaction}

theorem transfer_isOk_iff : (∃ b', b.transfer blockId tx = .ok b') ↔ b.accounts.Affords [] tx := by
  constructor
  · rintro ⟨b', h⟩
    obtain ⟨b₁, hd, hc⟩ := transfer_eq_ok_iff.mp h
    obtain ⟨s, hs, hle, rfl⟩ := debit_eq_ok_iff.mp hd
    obtain ⟨r, hr, hlt, rfl⟩ := credit_eq_ok_iff.mp hc
    rw [account?_replace, Account.identifier_debited, identifier_of_account? hs] at hr
    refine ⟨⟨s, hs, ?_⟩, ?_⟩
    · simpa using UInt64.le_iff_toNat_le.mp hle
    · by_cases hsr : tx.sender = tx.receiver
      · refine ⟨s, hsr ▸ hs, ?_⟩
        have := s.balance.toNat_lt_size
        simpa [hsr] using this
      · rw [if_neg hsr] at hr
        refine ⟨r, hr, ?_⟩
        simpa [hsr] using hlt
  · rintro ⟨⟨s, hs, hle⟩, ⟨r, hr, hlt⟩⟩
    have hle' : tx.amount ≤ s.balance := UInt64.le_iff_toNat_le.mpr (by simpa using hle)
    have hd : b.debit blockId tx.sender tx.amount = .ok (b.replace (s.debited blockId tx.amount)) :=
      debit_eq_ok_iff.mpr ⟨s, hs, hle', rfl⟩
    have hsb := Account.balance_debited blockId hle'
    have hc : ∃ a, (b.replace (s.debited blockId tx.amount)).account? tx.receiver = some a ∧
        a.balance.toNat + tx.amount.toNat < UInt64.size := by
      rw [account?_replace, Account.identifier_debited, identifier_of_account? hs]
      by_cases hsr : tx.sender = tx.receiver
      · have := s.balance.toNat_lt_size
        exact ⟨_, if_pos hsr, by omega⟩
      · exact ⟨r, by rw [if_neg hsr]; exact hr, by simpa [hsr] using hlt⟩
    obtain ⟨a, ha, hlt'⟩ := hc
    exact ⟨_, transfer_eq_ok_iff.mpr ⟨_, hd, credit_eq_ok_iff.mpr ⟨a, ha, hlt', rfl⟩⟩⟩

theorem balance_transferAll (h : b.transferAll blockId txs = .ok b') (id : Identifier) :
    Option.Rel (fun a a' => a'.balance.toNat + sent txs id = a.balance.toNat + received txs id)
      (b.account? id) (b'.account? id) := by
  refine rel_of_rel (settled_transferAll h id) fun a a' ha hs => ?_
  have hb := hs.balance
  rw [identifier_of_account? ha] at hb
  exact hb

/-- What is affordable after a list of transfers was affordable before it with the list in
front. -/
theorem affords_transferAll_iff (h : b.transferAll blockId txs = .ok b') :
    b'.accounts.Affords more tx ↔ b.accounts.Affords (txs ++ more) tx := by
  have hs := exists_some_iff_of_rel (balance_transferAll h tx.sender)
    (P := fun a => sent (txs ++ more ++ [tx]) tx.sender ≤
      a.balance.toNat + received (txs ++ more) tx.sender)
    (Q := fun a => sent (more ++ [tx]) tx.sender ≤ a.balance.toNat + received more tx.sender)
    (fun a a' hb => by simp only [sent_append, received_append]; omega)
  have hr := exists_some_iff_of_rel (balance_transferAll h tx.receiver)
    (P := fun a => a.balance.toNat + received (txs ++ more ++ [tx]) tx.receiver <
      UInt64.size + sent (txs ++ more ++ [tx]) tx.receiver)
    (Q := fun a => a.balance.toNat + received (more ++ [tx]) tx.receiver <
      UInt64.size + sent (more ++ [tx]) tx.receiver)
    (fun a a' hb => by simp only [sent_append, received_append]; omega)
  exact ⟨fun h' => ⟨hs.mpr h'.sender, hr.mpr h'.receiver⟩,
    fun h' => ⟨hs.mp h'.sender, hr.mp h'.receiver⟩⟩

/-- **A list of transfers goes through exactly if each is affordable after those before it.** -/
theorem transferAll_isOk_iff :
    (∃ b', b.transferAll blockId txs = .ok b') ↔
      ∀ before tx, before ++ [tx] <+: txs → b.accounts.Affords before tx := by
  induction txs using List.reverseRecOn with
  | nil => simp [transferAll]
  | append_singleton txs last ih =>
    constructor
    · rintro ⟨b', h⟩ before tx hpre
      obtain ⟨b₁, h₁, h₂⟩ := transferAll_append_eq_ok_iff.mp h
      rcases List.prefix_concat_iff.mp hpre with heq | hpre
      · obtain ⟨rfl, hlast⟩ := List.append_inj' heq rfl
        obtain rfl : tx = last := by simpa using hlast
        have haff := transfer_isOk_iff.mp ⟨b', transferAll_singleton ▸ h₂⟩
        simpa using (affords_transferAll_iff h₁).mp haff
      · exact ih.mp ⟨b₁, h₁⟩ before tx hpre
    · intro hall
      obtain ⟨b₁, h₁⟩ := ih.mpr fun before tx hpre =>
        hall before tx (hpre.trans (List.prefix_append _ _))
      have haff := hall txs last List.prefix_rfl
      rw [← List.append_nil txs] at haff
      obtain ⟨b', h₂⟩ := transfer_isOk_iff.mpr ((affords_transferAll_iff h₁).mpr haff)
      exact ⟨b', transferAll_append_eq_ok_iff.mpr ⟨b₁, h₁, transferAll_singleton.trans h₂⟩⟩

end SnapshotBuilder

end StakeLedger
