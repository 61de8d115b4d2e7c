import StakeLedger.Entity
import StakeLedger.Signature

/-!
# Transactions

A transaction moves an amount from a sender to a receiver and is judged by the snapshot of
its reference block. A validated transaction carries the certificates of validators too.
The identity of both is the transfer alone, so neither signature nor certificates change it.
-/

namespace StakeLedger

/-- A transfer between two accounts. -/
structure Transaction where
  /-- The block whose snapshot the transfer is judged by. -/
  referenceBlockId : Identifier
  sender : Identifier
  receiver : Identifier
  amount : UInt64
  signature : Option Signature
  deriving DecidableEq

namespace Transaction

/-- What the identity of a transaction covers: everything but its signature. -/
def body (tx : Transaction) : Identifier × Identifier × Identifier × UInt64 :=
  (tx.referenceBlockId, tx.sender, tx.receiver, tx.amount)

instance : Codec Transaction :=
  Codec.via (fun tx => (tx.referenceBlockId, tx.sender, tx.receiver, tx.amount, tx.signature))
    fun (referenceBlockId, sender, receiver, amount, signature) =>
      ⟨referenceBlockId, sender, receiver, amount, signature⟩

instance : Codec.Robust Transaction :=
  .via (fun tx : Transaction =>
      (tx.referenceBlockId, tx.sender, tx.receiver, tx.amount, tx.signature))
    fun p => ⟨p.1, p.2.1, p.2.2.1, p.2.2.2.1, p.2.2.2.2⟩

instance : Entity Transaction where
  typeTag := "transaction"
  identityBytes tx := .ok (Codec.encode tx.body)

/-- The fields in order. -/
def fieldNames : List String := ["reference_block_id", "sender", "receiver", "amount", "signature"]

instance : JsonForm Transaction where
  toJson tx :=
    .ofMembers [("reference_block_id", toJson tx.referenceBlockId), ("sender", toJson tx.sender),
      ("receiver", toJson tx.receiver), ("amount", toJson tx.amount), ("signature", toJson tx.signature)]
  ofJson? j := do
    let [referenceBlockId, sender, receiver, amount, signature] ← Json.fields? false fieldNames j | none
    return ⟨← Json.required? referenceBlockId, ← Json.required? sender, ← Json.required? receiver,
      ← Json.required? amount, ← Json.optional? signature⟩

end Transaction

/-- A transaction with the signatures of validators. -/
structure ValidatedTransaction where
  transaction : Transaction
  certificates : List Signature
  deriving DecidableEq

namespace ValidatedTransaction

instance : Codec ValidatedTransaction :=
  Codec.via (fun v => (v.transaction, v.certificates)) fun (transaction, certificates) =>
    ⟨transaction, certificates⟩

instance : Codec.Robust ValidatedTransaction :=
  .via (fun v : ValidatedTransaction => (v.transaction, v.certificates)) fun p => ⟨p.1, p.2⟩

instance : Entity ValidatedTransaction where
  typeTag := "validated-transaction"
  identityBytes v := Entity.identityBytes v.transaction

/-- The fields in order. -/
def fieldNames : List String := ["transaction", "certificates"]

instance : JsonForm ValidatedTransaction where
  toJson v :=
    .ofMembers [("transaction", toJson v.transaction), ("certificates", toJson v.certificates)]
  ofJson? j := do
    let [transaction, certificates] ← Json.fields? false fieldNames j | none
    return ⟨← Json.required? transaction, ← Json.required? certificates⟩

end ValidatedTransaction

end StakeLedger
