import StakeLedger.Transaction

/-!
# Blocks

A block extends the chain by a list of validated transactions. Its identity covers all of
it, the signatures and certificates of its transactions included, but not its own signature.
-/

namespace StakeLedger

/-- A block of transactions, proposed on top of another block. -/
structure Block where
  previousBlockId : Identifier
  proposer : Identifier
  height : UInt64
  transactions : List ValidatedTransaction
  signature : Option Signature
  deriving DecidableEq

namespace Block

/-- What the identity of a block covers: everything but its signature. -/
def body (b : Block) : Identifier × Identifier × UInt64 × List ValidatedTransaction :=
  (b.previousBlockId, b.proposer, b.height, b.transactions)

instance : Codec Block :=
  Codec.via (fun b => (b.previousBlockId, b.proposer, b.height, b.transactions, b.signature))
    fun (previousBlockId, proposer, height, transactions, signature) =>
      ⟨previousBlockId, proposer, height, transactions, signature⟩

instance : Codec.Robust Block :=
  .via (fun b : Block => (b.previousBlockId, b.proposer, b.height, b.transactions, b.signature))
    fun p => ⟨p.1, p.2.1, p.2.2.1, p.2.2.2.1, p.2.2.2.2⟩

instance : Entity Block where
  typeTag := "block"
  identityBytes b := .ok (Codec.encode b.body)

/-- The fields in order. -/
def fieldNames : List String := ["previous_block_id", "proposer", "height", "transactions", "signature"]

instance : JsonForm Block where
  toJson b :=
    .ofMembers [("previous_block_id", toJson b.previousBlockId), ("proposer", toJson b.proposer),
      ("height", toJson b.height), ("transactions", toJson b.transactions),
      ("signature", toJson b.signature)]
  ofJson? j := do
    let [previousBlockId, proposer, height, transactions, signature] ← Json.fields? false fieldNames j
      | none
    return ⟨← Json.required? previousBlockId, ← Json.required? proposer, ← Json.required? height,
      ← Json.required? transactions, ← Json.optional? signature⟩

end Block

end StakeLedger
