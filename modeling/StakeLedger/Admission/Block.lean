import StakeLedger.Admission.Transaction
import StakeLedger.Assignment
import StakeLedger.Parameters

/-!
# Admission of blocks

Six predicates decide whether a block may extend a chain. Each is false where a snapshot or
an account that it needs is missing. `Block.admission` evaluates them in order and names the
first that fails. Only the first, which compares heights, can end without an answer: when
the block's predecessor stands at the greatest height there is.
-/

namespace StakeLedger

/-- The first predicate that a block fails. -/
inductive BlockRejection
  /-- Not well-formed against its predecessor. -/
  | incorrect
  /-- The predecessor is not the latest block. -/
  | inconsistent
  /-- Not signed by the assigned proposer. -/
  | unauthenticated
  /-- A transaction has too few certificates. -/
  | insufficientSignatures
  /-- A transaction is not admissible. -/
  | invalidTransaction (reason : TransactionRejection)
  /-- A sender spends twice, or more than it has. -/
  | conflictingTransactions
  deriving DecidableEq

/-- The wording of a rejection. -/
def BlockRejection.message : BlockRejection → String
  | incorrect => "block is not well-formed against its previous block"
  | inconsistent => "previous block is not the latest finalized block"
  | unauthenticated => "block is not signed by its assigned proposer"
  | insufficientSignatures => "a transaction lacks enough validator signatures"
  | invalidTransaction reason => "contained transaction rejected: " ++ reason.message
  | conflictingTransactions => "transactions overdraw or replay a sender against the previous block"

/-- The height above a block's predecessor is more than 64 bits hold. -/
inductive HeightOverflow
  | atLimit
  deriving DecidableEq

namespace ValidatedTransaction

/-- Whether an account certified the transaction: a certificate in its name verifies under
the key that it has in the reference snapshot. -/
def certifies (h : Hasher) (reference : AccountSnapshot) (tx : Transaction) (certificate : Signature) : Bool :=
  match reference.account? certificate.signer with
  | none => false
  | some signer =>
    match signer.publicKey.decode with
    | .error _ => false
    | .ok key => key.verifyEntity h tx certificate

/-- The assigned validators among the signers of valid certificates, each once. -/
def signers (h : Hasher) (reference : AccountSnapshot) (assignment : Assignment) (tx : Transaction) :
    List Signature → List Identifier → List Identifier
  | [], found => found
  | certificate :: rest, found =>
    if assignment.has certificate.signer && !found.contains certificate.signer &&
        certifies h reference tx certificate then
      signers h reference assignment tx rest (certificate.signer :: found)
    else signers h reference assignment tx rest found

/-- Enough of the validators assigned to the transaction certified it. -/
def isCertified (v : ValidatedTransaction) (h : Hasher) (p : Parameters) (c : Chain) : Bool :=
  let tx := v.transaction
  match c.snapshot? tx.referenceBlockId with
  | none => false
  | some reference =>
    match h.entityId tx with
    | .error _ => false
    | .ok id =>
      match (Assigner.mk h p.minStake).assignValidators id reference.all p.validatorsPerEntity.toNat with
      | .error _ => false
      | .ok assignment =>
        p.signatureThreshold.toNat ≤ (signers h reference assignment tx v.certificates []).length

end ValidatedTransaction

namespace Block

/-- The identifiers of the contained transactions, if all have one. -/
def transactionIds? (h : Hasher) : List ValidatedTransaction → Option (List Identifier)
  | [] => some []
  | v :: rest =>
    match h.entityId v.transaction, transactionIds? h rest with
    | .ok id, some ids => some (id :: ids)
    | _, _ => none

/-- No two of the contained transactions have the same identifier. -/
def hasDistinctTransactions (b : Block) (h : Hasher) : Bool :=
  match transactionIds? h b.transactions with
  | none => false
  | some ids => ids.Nodup

/-- The predecessor is finalized and stands one below the block, the number of transactions
is within the bounds, and no transaction is contained twice. -/
def isCorrect (b : Block) (h : Hasher) (p : Parameters) (c : Chain) : Except HeightOverflow Bool :=
  match c.snapshot? b.previousBlockId with
  | none => .ok false
  | some previous =>
    match successorHeight? previous.height with
    | none => .error .atLimit
    | some expected =>
      let count := b.transactions.length
      .ok (b.height = expected && p.minTransactionsPerBlock.toNat ≤ count &&
        count ≤ p.maxTransactionsPerBlock.toNat && b.hasDistinctTransactions h)

/-- The predecessor is the latest finalized block. -/
def isConsistent (b : Block) (c : Chain) : Bool :=
  match c.last? with
  | none => false
  | some last => last.blockId = b.previousBlockId

/-- The proposer is the one assigned for the predecessor and signed the block. -/
def isAuthenticated (b : Block) (h : Hasher) (p : Parameters) (c : Chain) : Bool :=
  match b.signature, c.snapshot? b.previousBlockId with
  | some signature, some previous =>
    if signature.signer = b.proposer then
      match (Assigner.mk h p.minStake).assignProposer b.previousBlockId previous.all,
          previous.account? b.proposer with
      | .ok proposer, some account =>
        if proposer = b.proposer then
          match account.publicKey.decode with
          | .error _ => false
          | .ok key => key.verifyEntity h b signature
        else false
      | _, _ => false
    else false
  | _, _ => false

/-- Every transaction is certified by enough of its validators. -/
def isCertified (b : Block) (h : Hasher) (p : Parameters) (c : Chain) : Bool :=
  b.transactions.all fun v => v.isCertified h p c

/-- Nothing if every transaction is admissible, or what the first fails that is not. -/
def admissionOfAll (h : Hasher) (c : Chain) : List ValidatedTransaction → Except TransactionRejection Unit
  | [] => .ok ()
  | v :: rest =>
    match v.transaction.admission h c with
    | .error reason => .error reason
    | .ok () => admissionOfAll h c rest

/-- The parties of a transfer have accounts in the predecessor's snapshot, the sender's has
not changed since the reference block, and it still covers the amount. -/
def isSpendableAt (c : Chain) (previous : AccountSnapshot) (tx : Transaction) : Bool :=
  match previous.account? tx.receiver, previous.account? tx.sender with
  | some _, some sender =>
    match c.snapshot? sender.lastBlockId, c.snapshot? tx.referenceBlockId with
    | some last, some reference => last.height < reference.height && tx.amount ≤ sender.balance
    | _, _ => false
  | _, _ => false

/-- Each sender spends at most once, and what it can. -/
def isSpendable (b : Block) (c : Chain) : Bool :=
  match c.snapshot? b.previousBlockId with
  | none => false
  | some previous =>
    (b.transactions.map (·.transaction.sender)).Nodup &&
      b.transactions.all fun v => isSpendableAt c previous v.transaction

/-- Nothing if all the predicates hold, or the first that does not. -/
def admission (b : Block) (h : Hasher) (p : Parameters) (c : Chain) :
    Except HeightOverflow (Except BlockRejection Unit) :=
  match b.isCorrect h p c with
  | .error e => .error e
  | .ok false => .ok (.error .incorrect)
  | .ok true =>
    .ok <|
      if !b.isConsistent c then .error .inconsistent
      else if !b.isAuthenticated h p c then .error .unauthenticated
      else if !b.isCertified h p c then .error .insufficientSignatures
      else
        match admissionOfAll h c b.transactions with
        | .error reason => .error (.invalidTransaction reason)
        | .ok () => if !b.isSpendable c then .error .conflictingTransactions else .ok ()

end Block

end StakeLedger
