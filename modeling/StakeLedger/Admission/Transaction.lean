import StakeLedger.Chain
import StakeLedger.Keys

/-!
# Admission of transactions

Four predicates decide whether a transaction is admissible in a chain. Each is false where a
snapshot or an account that it needs is missing. `Transaction.admission` evaluates them in order
and names the first that fails.
-/

namespace StakeLedger

/-- The first predicate that a transaction fails. -/
inductive TransactionRejection
  /-- Not well-formed against its reference block. -/
  | incorrect
  /-- The reference block does not follow the sender's last block. -/
  | unsound
  /-- The signature is not the sender's. -/
  | unauthenticated
  /-- The sender has too little. -/
  | insufficientBalance
  deriving DecidableEq

/-- The wording of a rejection. -/
def TransactionRejection.message : TransactionRejection → String
  | incorrect => "transaction is not well-formed against its reference block"
  | unsound => "reference block does not follow the sender's last recorded block"
  | unauthenticated => "signature does not verify under the sender's key"
  | insufficientBalance => "sender balance is below the transfer amount"

namespace Transaction

/-- The sender's account as of the reference block. -/
def senderAccount? (tx : Transaction) (c : Chain) : Option Account :=
  (c.snapshot? tx.referenceBlockId).bind (·.account? tx.sender)

/-- The reference block is finalized, both parties have accounts in its snapshot, and the
amount is positive. -/
def isCorrect (tx : Transaction) (c : Chain) : Bool :=
  match c.snapshot? tx.referenceBlockId with
  | none => false
  | some reference =>
    (reference.account? tx.sender).isSome && (reference.account? tx.receiver).isSome && 0 < tx.amount

/-- The reference block is higher than the block that last changed the sender's account. -/
def isSound (tx : Transaction) (c : Chain) : Bool :=
  match c.snapshot? tx.referenceBlockId with
  | none => false
  | some reference =>
    match reference.account? tx.sender with
    | none => false
    | some sender =>
      match c.snapshot? sender.lastBlockId with
      | none => false
      | some last => last.height < reference.height

/-- The sender signed, with the key that the account has in the reference snapshot. -/
def isAuthenticated (tx : Transaction) (h : Hasher) (c : Chain) : Bool :=
  match tx.signature with
  | none => false
  | some signature =>
    if signature.signer = tx.sender then
      match tx.senderAccount? c with
      | none => false
      | some sender =>
        match sender.publicKey.decode with
        | .error _ => false
        | .ok key => key.verifyEntity h tx signature
    else false

/-- The sender's balance in the reference snapshot covers the amount. -/
def isCovered (tx : Transaction) (c : Chain) : Bool :=
  match tx.senderAccount? c with
  | none => false
  | some sender => tx.amount ≤ sender.balance

/-- Nothing if all the predicates hold, or the first that does not. -/
def admission (tx : Transaction) (h : Hasher) (c : Chain) : Except TransactionRejection Unit :=
  if !tx.isCorrect c then .error .incorrect
  else if !tx.isSound c then .error .unsound
  else if !tx.isAuthenticated h c then .error .unauthenticated
  else if !tx.isCovered c then .error .insufficientBalance
  else .ok ()

end Transaction

end StakeLedger
