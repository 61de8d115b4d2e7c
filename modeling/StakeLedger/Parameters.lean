import StakeLedger.Codec.Basic
import StakeLedger.Json.Form

/-!
# Protocol parameters

The numbers on which all nodes of a network have to agree, and the check that they make
sense together.
-/

namespace StakeLedger

/-- The parameters of the protocol. -/
structure Parameters where
  /-- Accounts below this stake are never assigned. -/
  minStake : UInt64 := 10
  /-- How many validators are assigned to a transaction. -/
  validatorsPerEntity : UInt64 := 10
  /-- How many of them have to certify a transaction before it enters a block. -/
  signatureThreshold : UInt64 := 6
  minTransactionsPerBlock : UInt64 := 0
  maxTransactionsPerBlock : UInt64 := 100
  deriving DecidableEq

namespace Parameters

instance : Inhabited Parameters := ⟨{}⟩

/-- Whether the parameters make sense, and the first reason why not. -/
def validate (p : Parameters) : Except LedgerError Unit :=
  if p.validatorsPerEntity = 0 then .error (.invalidArgument .noValidators)
  else if p.signatureThreshold = 0 ∨ p.validatorsPerEntity < p.signatureThreshold then
    .error (.invalidArgument (.thresholdOutOfRange p.validatorsPerEntity p.signatureThreshold))
  else if p.maxTransactionsPerBlock = 0 ∨ p.maxTransactionsPerBlock < p.minTransactionsPerBlock then
    .error (.invalidArgument (.blockBounds p.minTransactionsPerBlock p.maxTransactionsPerBlock))
  else .ok ()

instance : Codec Parameters :=
  Codec.via
    (fun p => (p.minStake, p.validatorsPerEntity, p.signatureThreshold, p.minTransactionsPerBlock,
      p.maxTransactionsPerBlock))
    fun (minStake, validatorsPerEntity, signatureThreshold, minTransactions, maxTransactions) =>
      ⟨minStake, validatorsPerEntity, signatureThreshold, minTransactions, maxTransactions⟩

/-- The fields in order. -/
def fieldNames : List String :=
  ["min_stake", "validators_per_entity", "signature_threshold", "min_transactions_per_block",
    "max_transactions_per_block"]

/-- An absent field has its default. -/
instance : JsonForm Parameters where
  toJson p :=
    .ofMembers [("min_stake", toJson p.minStake), ("validators_per_entity", toJson p.validatorsPerEntity),
      ("signature_threshold", toJson p.signatureThreshold),
      ("min_transactions_per_block", toJson p.minTransactionsPerBlock),
      ("max_transactions_per_block", toJson p.maxTransactionsPerBlock)]
  ofJson? j := do
    let [minStake, validators, threshold, minTransactions, maxTransactions] ← Json.fields? true fieldNames j
      | none
    let standard : Parameters := {}
    return ⟨← Json.orDefault? standard.minStake minStake,
      ← Json.orDefault? standard.validatorsPerEntity validators,
      ← Json.orDefault? standard.signatureThreshold threshold,
      ← Json.orDefault? standard.minTransactionsPerBlock minTransactions,
      ← Json.orDefault? standard.maxTransactionsPerBlock maxTransactions⟩

end Parameters

end StakeLedger
