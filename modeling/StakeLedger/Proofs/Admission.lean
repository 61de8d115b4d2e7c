import StakeLedger.Admission.Block
import StakeLedger.Proofs.Identity

/-!
# What admission says

A transaction or block is admitted exactly if each of its predicates holds, and each predicate
says that certain snapshots and accounts are found and how they compare. Nothing after this
module unfolds a predicate.

* `Block.admission_eq_ok_iff` and `Transaction.admission_eq_ok_iff` split admission into the
  predicates.
* `Transaction.AdmissibleAt` is what they ask of a transaction, as a property of the snapshot
  that it is judged by (`Transaction.admission_eq_ok_iff_admissibleAt`).
* `Block.isCorrect_eq_ok_true_iff`, `Block.isSpendableAt_eq_true_iff` and the like say what
  each predicate asks for.
-/

namespace StakeLedger

theorem successorHeight?_eq_some_iff {height next : UInt64} :
    successorHeight? height = some next ↔ next.toNat = height.toNat + 1 := by
  unfold successorHeight?
  have hlt := next.toNat_lt_size
  split
  · next hh =>
    rw [Option.some.injEq, ← UInt64.toNat_inj, UInt64.toNat_add]
    have : (height.toNat + (1 : UInt64).toNat) % 2 ^ 64 = height.toNat + 1 := Nat.mod_eq_of_lt hh
    rw [this, eq_comm]
  · next hh =>
    simp only [reduceCtorEq, false_iff]
    omega

/-! ## Transactions -/

namespace Transaction

variable {tx : Transaction} {h : Hasher} {c : Chain}

theorem admission_eq_ok_iff :
    tx.admission h c = .ok () ↔
      tx.isCorrect c = true ∧ tx.isSound c = true ∧ tx.isAuthenticated h c = true ∧
      tx.isCovered c = true := by
  unfold admission
  cases tx.isCorrect c <;> cases tx.isSound c <;> cases tx.isAuthenticated h c <;>
    cases tx.isCovered c <;> simp

theorem isCorrect_eq_true_iff :
    tx.isCorrect c = true ↔
    ∃ reference sender receiver, c.snapshot? tx.referenceBlockId = some reference ∧
      reference.account? tx.sender = some sender ∧ reference.account? tx.receiver = some receiver ∧
      0 < tx.amount := by
  unfold isCorrect
  cases c.snapshot? tx.referenceBlockId with
  | none => simp
  | some reference => simp [Option.isSome_iff_exists, and_assoc]

theorem isSound_eq_true_iff :
    tx.isSound c = true ↔
    ∃ reference sender last, c.snapshot? tx.referenceBlockId = some reference ∧
      reference.account? tx.sender = some sender ∧ c.snapshot? sender.lastBlockId = some last ∧
      last.height < reference.height := by
  unfold isSound
  cases c.snapshot? tx.referenceBlockId with
  | none => simp
  | some reference =>
    cases hs : reference.account? tx.sender with
    | none => simp [hs]
    | some sender => cases hl : c.snapshot? sender.lastBlockId <;> simp [hs, hl]

theorem isAuthenticated_eq_true_iff :
    tx.isAuthenticated h c = true ↔ ∃ signature sender key, tx.signature = some signature ∧
      signature.signer = tx.sender ∧ tx.senderAccount? c = some sender ∧
      sender.publicKey.decode = .ok key ∧ key.verifyEntity h tx signature = true := by
  unfold isAuthenticated
  cases tx.signature with
  | none => simp
  | some signature =>
    by_cases hs : signature.signer = tx.sender
    · cases tx.senderAccount? c with
      | none => simp
      | some sender => cases hk : sender.publicKey.decode <;> simp [hs, hk]
    · simp [hs]

theorem isCovered_eq_true_iff :
    tx.isCovered c = true ↔
    ∃ sender, tx.senderAccount? c = some sender ∧ tx.amount ≤ sender.balance := by
  unfold isCovered
  cases tx.senderAccount? c <;> simp

/-- What admission asks of a transaction that is judged by a snapshot: both parties are found,
and the sender's account covers the amount, was last changed below the snapshot, and has the key
of the signature. -/
structure AdmissibleAt (tx : Transaction) (h : Hasher) (c : Chain) (s : AccountSnapshot) :
    Prop where
  amount_pos : 0 < tx.amount
  receiver : ∃ receiver, s.account? tx.receiver = some receiver
  sender : ∃ sender last signature key, s.account? tx.sender = some sender ∧
    tx.amount ≤ sender.balance ∧
    c.snapshot? sender.lastBlockId = some last ∧ last.height < s.height ∧
    tx.signature = some signature ∧ signature.signer = tx.sender ∧
    sender.publicKey.decode = .ok key ∧ key.verifyEntity h tx signature = true

theorem senderAccount?_eq {reference : AccountSnapshot}
    (hr : c.snapshot? tx.referenceBlockId = some reference) :
    tx.senderAccount? c = reference.account? tx.sender := by
  rw [senderAccount?, hr, Option.bind_some]

/-- **A transaction is admitted exactly if it is admissible at the snapshot of its reference
block.** -/
theorem admission_eq_ok_iff_admissibleAt :
    tx.admission h c = .ok () ↔
      ∃ reference, c.snapshot? tx.referenceBlockId = some reference ∧
      tx.AdmissibleAt h c reference := by
  rw [admission_eq_ok_iff, isCorrect_eq_true_iff, isSound_eq_true_iff, isAuthenticated_eq_true_iff,
    isCovered_eq_true_iff]
  constructor
  · rintro ⟨⟨reference, _, receiver, hr, -, hreceiver, hpos⟩, ⟨_, sender, last, hr₁, hs, hl, hlt⟩,
      ⟨signature, _, key, hsig, hsigner, hs₁, hkey, hver⟩, _, hs₂, hle⟩
    obtain rfl : reference = _ := Option.some.inj (hr.symm.trans hr₁)
    rw [senderAccount?_eq hr, hs, Option.some.injEq] at hs₁ hs₂
    subst hs₁ hs₂
    exact ⟨reference, hr, hpos, ⟨receiver, hreceiver⟩,
      sender, last, signature, key, hs, hle, hl, hlt, hsig, hsigner, hkey, hver⟩
  · rintro ⟨reference, hr, hpos, ⟨receiver, hreceiver⟩,
      sender, last, signature, key, hs, hle, hl, hlt, hsig, hsigner, hkey, hver⟩
    have hsender : tx.senderAccount? c = some sender := (senderAccount?_eq hr).trans hs
    exact ⟨⟨reference, sender, receiver, hr, hs, hreceiver, hpos⟩,
      ⟨reference, sender, last, hr, hs, hl, hlt⟩,
      ⟨signature, sender, key, hsig, hsigner, hsender, hkey, hver⟩, sender, hsender, hle⟩

end Transaction

/-! ## Blocks -/

namespace ValidatedTransaction

variable {v : ValidatedTransaction} {h : Hasher} {p : Parameters} {c : Chain}

theorem certifies_eq_true_iff {reference : AccountSnapshot} {tx : Transaction}
    {certificate : Signature} :
    certifies h reference tx certificate = true ↔ ∃ signer key,
      reference.account? certificate.signer = some signer ∧ signer.publicKey.decode = .ok key ∧
      key.verifyEntity h tx certificate = true := by
  unfold certifies
  cases reference.account? certificate.signer with
  | none => simp
  | some signer => cases hk : signer.publicKey.decode <;> simp [hk]

theorem isCertified_eq_true_iff :
    v.isCertified h p c = true ↔ ∃ reference assignment,
      c.snapshot? v.transaction.referenceBlockId = some reference ∧
      (Assigner.mk h p.minStake).assignValidators (h.transactionId v.transaction) reference.all
        p.validatorsPerEntity.toNat = .ok assignment ∧
      p.signatureThreshold.toNat ≤
        (signers h reference assignment v.transaction v.certificates []).length := by
  rw [isCertified]
  cases c.snapshot? v.transaction.referenceBlockId with
  | none => simp
  | some reference =>
    simp only [h.entityId_transaction]
    cases hv : (Assigner.mk h p.minStake).assignValidators (h.transactionId v.transaction)
        reference.all p.validatorsPerEntity.toNat <;> simp [hv]

end ValidatedTransaction

namespace Block

variable {b : Block} {h : Hasher} {p : Parameters} {c : Chain}

theorem admission_eq_ok_iff :
    b.admission h p c = .ok (.ok ()) ↔
      b.isCorrect h p c = .ok true ∧ b.isConsistent c = true ∧ b.isAuthenticated h p c = true ∧
        b.isCertified h p c = true ∧ admissionOfAll h c b.transactions = .ok () ∧
        b.isSpendable c = true := by
  unfold admission
  rcases b.isCorrect h p c with e | _ | _
  · simp
  · simp
  · cases b.isConsistent c <;> cases b.isAuthenticated h p c <;> cases b.isCertified h p c <;>
      cases admissionOfAll h c b.transactions <;> cases b.isSpendable c <;> simp

theorem transactionIds?_eq (h : Hasher) (txs : List ValidatedTransaction) :
    transactionIds? h txs = some (txs.map fun v => h.transactionId v.transaction) := by
  induction txs with
  | nil => rfl
  | cons v rest ih => simp only [transactionIds?, h.entityId_transaction, ih, List.map_cons]

theorem isCorrect_eq_ok_true_iff :
    b.isCorrect h p c = .ok true ↔ ∃ previous, c.snapshot? b.previousBlockId = some previous ∧
      b.height.toNat = previous.height.toNat + 1 ∧
      p.minTransactionsPerBlock.toNat ≤ b.transactions.length ∧
      b.transactions.length ≤ p.maxTransactionsPerBlock.toNat ∧
      (b.transactions.map fun v => h.transactionId v.transaction).Nodup := by
  unfold isCorrect
  cases c.snapshot? b.previousBlockId with
  | none => simp
  | some previous =>
    cases hs : successorHeight? previous.height with
    | none =>
      have hne : b.height.toNat ≠ previous.height.toNat + 1 := fun he => by
        simp [successorHeight?_eq_some_iff.mpr he] at hs
      simp [hs, hne]
    | some expected =>
      have he := successorHeight?_eq_some_iff.mp hs
      have hh : b.height = expected ↔ b.height.toNat = previous.height.toNat + 1 := by
        rw [← he, UInt64.toNat_inj]
      simp [hs, hh, hasDistinctTransactions, transactionIds?_eq, and_assoc]

theorem isConsistent_eq_true_iff :
    b.isConsistent c = true ↔ ∃ last, c.last? = some last ∧ last.blockId = b.previousBlockId := by
  unfold isConsistent
  cases c.last? <;> simp

theorem isAuthenticated_eq_true_iff :
    b.isAuthenticated h p c = true ↔ ∃ signature previous account key,
      b.signature = some signature ∧ c.snapshot? b.previousBlockId = some previous ∧
      signature.signer = b.proposer ∧
      (Assigner.mk h p.minStake).assignProposer b.previousBlockId previous.all = .ok b.proposer ∧
      previous.account? b.proposer = some account ∧ account.publicKey.decode = .ok key ∧
      key.verifyEntity h b signature = true := by
  unfold isAuthenticated
  cases b.signature with
  | none => simp
  | some signature =>
    cases c.snapshot? b.previousBlockId with
    | none => simp
    | some previous =>
      by_cases hs : signature.signer = b.proposer
      · cases hp : (Assigner.mk h p.minStake).assignProposer b.previousBlockId previous.all with
        | error e => simp [hs, hp]
        | ok proposer =>
          cases ha : previous.account? b.proposer with
          | none => simp [hs, hp, ha]
          | some account =>
            by_cases hpe : proposer = b.proposer
            · cases hk : account.publicKey.decode <;> simp [hs, hp, ha, hpe, hk]
            · simp [hs, hp, ha, hpe]
      · simp [hs]

theorem admissionOfAll_eq_ok_iff {txs : List ValidatedTransaction} :
    admissionOfAll h c txs = .ok () ↔ ∀ v ∈ txs, v.transaction.admission h c = .ok () := by
  induction txs with
  | nil => simp [admissionOfAll]
  | cons v rest ih =>
    unfold admissionOfAll
    cases hv : v.transaction.admission h c <;> simp [hv, ih]

theorem isSpendableAt_eq_true_iff {previous : AccountSnapshot} {tx : Transaction} :
    isSpendableAt c previous tx = true ↔ ∃ receiver sender last reference,
      previous.account? tx.receiver = some receiver ∧ previous.account? tx.sender = some sender ∧
      c.snapshot? sender.lastBlockId = some last ∧
      c.snapshot? tx.referenceBlockId = some reference ∧
      last.height < reference.height ∧ tx.amount ≤ sender.balance := by
  unfold isSpendableAt
  cases previous.account? tx.receiver with
  | none => simp
  | some receiver =>
    cases previous.account? tx.sender with
    | none => simp
    | some sender =>
      cases hl : c.snapshot? sender.lastBlockId with
      | none => simp [hl]
      | some last => cases c.snapshot? tx.referenceBlockId <;> simp [hl]

theorem isSpendable_eq_true_iff :
    b.isSpendable c = true ↔ ∃ previous, c.snapshot? b.previousBlockId = some previous ∧
      (b.transactions.map (·.transaction.sender)).Nodup ∧
      ∀ v ∈ b.transactions, isSpendableAt c previous v.transaction = true := by
  unfold isSpendable
  cases c.snapshot? b.previousBlockId <;> simp

end Block

end StakeLedger
