import StakeLedger.Entity
import StakeLedger.Signature

/-!
# Accounts

An account as one snapshot records it. Its identity covers all of it.
-/

namespace StakeLedger

/-- The state of an account at one finalized block. -/
structure Account where
  identifier : Identifier
  stake : UInt64
  publicKey : EncodedPublicKey
  /-- The last block that changed the account. -/
  lastBlockId : Identifier
  balance : UInt64
  deriving DecidableEq

namespace Account

/-- Whether the account may be assigned as validator or proposer. -/
def isStakeEligible (a : Account) (minStake : UInt64) : Bool :=
  minStake ≤ a.stake

instance : Codec Account :=
  Codec.via (fun a => (a.identifier, a.stake, a.publicKey, a.lastBlockId, a.balance))
    fun (identifier, stake, publicKey, lastBlockId, balance) =>
      ⟨identifier, stake, publicKey, lastBlockId, balance⟩

instance : Codec.Robust Account :=
  .via (fun a : Account => (a.identifier, a.stake, a.publicKey, a.lastBlockId, a.balance))
    fun p => ⟨p.1, p.2.1, p.2.2.1, p.2.2.2.1, p.2.2.2.2⟩

instance : Entity Account where
  typeTag := "account"
  identityBytes a := .ok (Codec.encode a)

/-- The fields in order. -/
def fieldNames : List String := ["identifier", "stake", "public_key", "last_block_id", "balance"]

instance : JsonForm Account where
  toJson a :=
    .ofMembers [("identifier", toJson a.identifier), ("stake", toJson a.stake),
      ("public_key", toJson a.publicKey), ("last_block_id", toJson a.lastBlockId),
      ("balance", toJson a.balance)]
  ofJson? j := do
    let [identifier, stake, publicKey, lastBlockId, balance] ← Json.fields? false fieldNames j | none
    return ⟨← Json.required? identifier, ← Json.required? stake, ← Json.required? publicKey,
      ← Json.required? lastBlockId, ← Json.required? balance⟩

end Account

end StakeLedger
