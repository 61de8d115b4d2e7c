import StakeLedger.Admission.Block
import StakeLedger.EncodedEntity
import StakeLedger.Node.Error

/-!
# The engine

An engine takes entities as they arrive at a node, admits or rejects them, and extends the
chain by the blocks that it admits. Nothing else changes the chain.

* `Engine.process` is the verdict on an entity, together with the chain afterwards.
-/

namespace StakeLedger

/-- What an engine decides about an entity. -/
inductive Verdict
  /-- The entity is admissible; a block is finalized. -/
  | accepted
  /-- The transaction is not admissible. -/
  | rejectedTransaction (reason : TransactionRejection)
  /-- The block is not admissible. -/
  | rejectedBlock (reason : BlockRejection)
  deriving DecidableEq

/-- Whether a verdict is acceptance. -/
def Verdict.isAccepted : Verdict → Bool
  | accepted => true
  | _ => false

/-- Why an engine has no verdict. -/
inductive ProcessFault
  /-- A height is more than 64 bits hold. -/
  | heightOverflow
  /-- The entity cannot be processed. -/
  | failed (cause : NodeError)
  deriving DecidableEq

/-- What all verdicts depend on beside the chain. -/
structure Engine where
  hasher : Hasher
  parameters : Parameters

namespace Engine

/-- The verdict on a transaction. -/
def judge (e : Engine) (c : Chain) (tx : Transaction) : Verdict :=
  match tx.admission e.hasher c with
  | .ok () => .accepted
  | .error reason => .rejectedTransaction reason

/-- The chain after a block, and the verdict on it. An admissible block is finalized. -/
def processBlock (e : Engine) (c : Chain) (block : Block) : Chain × Except ProcessFault Verdict :=
  match block.admission e.hasher e.parameters c with
  | .error .atLimit => (c, .error .heightOverflow)
  | .ok (.error reason) => (c, .ok (.rejectedBlock reason))
  | .ok (.ok ()) =>
    match c.finalizeBlock e.hasher block with
    | .error .heightOverflow => (c, .error .heightOverflow)
    | .error (.refused cause) => (c, .error (.failed (.ledger cause)))
    | .ok (next, _) => (next, .ok .accepted)

/-- The chain after an entity, and the verdict on it. Of a validated transaction the
transaction is judged. -/
def process (e : Engine) (c : Chain) (encoded : EncodedEntity) : Chain × Except ProcessFault Verdict :=
  if encoded.typeTag = Entity.typeTag Transaction then
    match (encoded.decode (Entity.typeTag Transaction) : Except LedgerError Transaction) with
    | .error cause => (c, .error (.failed (.ledger cause)))
    | .ok tx => (c, .ok (e.judge c tx))
  else if encoded.typeTag = Entity.typeTag ValidatedTransaction then
    match (encoded.decode (Entity.typeTag ValidatedTransaction) : Except LedgerError ValidatedTransaction) with
    | .error cause => (c, .error (.failed (.ledger cause)))
    | .ok validated => (c, .ok (e.judge c validated.transaction))
  else if encoded.typeTag = Entity.typeTag Block then
    match (encoded.decode (Entity.typeTag Block) : Except LedgerError Block) with
    | .error cause => (c, .error (.failed (.ledger cause)))
    | .ok block => e.processBlock c block
  else (c, .error (.failed (.unsupportedEntity encoded.typeTag)))

end Engine

end StakeLedger
