import StakeLedger.Block
import StakeLedger.Snapshot

/-!
# The chain

The state of a node: a snapshot for each finalized block, and which of them is the latest.
It only grows.

* `Chain.addSnapshot` adds the snapshot of a block. A snapshot that agrees with the one the
  block has already changes nothing; another one is refused. The latest snapshot is the
  first added of those of greatest height.
* `Chain.finalizeBlock` carries out the transfers of a block on the snapshot of its
  predecessor and adds the result.
-/

namespace StakeLedger

/-- The snapshots of the finalized blocks. -/
structure Chain where
  /-- The snapshots, the last one added first. -/
  snapshots : List AccountSnapshot
  /-- The block of the latest snapshot. -/
  lastFinalized : Option Identifier

/-- Why a block is not finalized. -/
inductive FinalizeFault
  /-- The height above the block's predecessor is more than 64 bits hold. The program breaks down
  on the addition, which is a checked one. -/
  | heightOverflow
  /-- The block is refused. -/
  | refused (cause : LedgerError)
  deriving DecidableEq

/-- The height above a height, if 64 bits hold it. The addition is checked. In a build without
overflow checks it would wrap, and the height above the greatest one would be zero; such a build is
not what is described here. -/
def successorHeight? (height : UInt64) : Option UInt64 :=
  if height.toNat + 1 < UInt64.size then some (height + 1) else none

namespace SnapshotBuilder

/-- The builder after the withdrawal of an amount from an account. -/
def debit (b : SnapshotBuilder) (blockId sender : Identifier) (amount : UInt64) :
    Except LedgerError SnapshotBuilder :=
  match b.account? sender with
  | none => .error (.notFound (.sender sender))
  | some account =>
    if account.balance < amount then .error (.invalidArgument (.overdraft sender account.balance amount))
    else b.update { account with balance := account.balance - amount, lastBlockId := blockId }

/-- The builder after the payment of an amount to an account. -/
def credit (b : SnapshotBuilder) (blockId receiver : Identifier) (amount : UInt64) :
    Except LedgerError SnapshotBuilder :=
  match b.account? receiver with
  | none => .error (.notFound (.receiver receiver))
  | some account =>
    if account.balance.toNat + amount.toNat < UInt64.size then
      b.update { account with balance := account.balance + amount, lastBlockId := blockId }
    else .error (.invalidArgument (.balanceOverflow receiver))

/-- The builder after a transfer, whose parties are stamped with the block. -/
def transfer (b : SnapshotBuilder) (blockId : Identifier) (tx : Transaction) :
    Except LedgerError SnapshotBuilder :=
  match b.debit blockId tx.sender tx.amount with
  | .error e => .error e
  | .ok b => b.credit blockId tx.receiver tx.amount

/-- The builder after all the transfers of a list, one after the other. -/
def transferAll (b : SnapshotBuilder) (blockId : Identifier) : List Transaction → Except LedgerError SnapshotBuilder
  | [] => .ok b
  | tx :: rest =>
    match b.transfer blockId tx with
    | .error e => .error e
    | .ok b => b.transferAll blockId rest

end SnapshotBuilder

namespace Chain

/-- The chain without snapshots. -/
def empty : Chain := ⟨[], none⟩

instance : Inhabited Chain := ⟨empty⟩

/-- The snapshot of a block. -/
def snapshot? (c : Chain) (blockId : Identifier) : Option AccountSnapshot :=
  c.snapshots.find? fun s => s.blockId = blockId

/-- Whether a block has a snapshot. -/
def contains (c : Chain) (blockId : Identifier) : Bool :=
  (c.snapshot? blockId).isSome

/-- The latest snapshot. -/
def last? (c : Chain) : Option AccountSnapshot :=
  c.lastFinalized.bind c.snapshot?

/-- The number of snapshots. -/
def size (c : Chain) : Nat := c.snapshots.length

/-- Whether there is no snapshot. -/
def isEmpty (c : Chain) : Bool := c.snapshots.isEmpty

/-- Whether a snapshot of the given height becomes the latest one. -/
def advances (c : Chain) (height : UInt64) : Bool :=
  match c.last? with
  | some last => last.height < height
  | none => true

/-- The chain with a snapshot added, and the snapshot that the block has then. -/
def addSnapshot (c : Chain) (s : AccountSnapshot) : Except LedgerError (Chain × AccountSnapshot) :=
  match c.snapshot? s.blockId with
  | some existing =>
    if existing.sameAs s then .ok (c, existing)
    else .error (.invalidArgument (.conflictingSnapshot s.blockId))
  | none =>
    .ok (⟨s :: c.snapshots, if c.advances s.height then some s.blockId else c.lastFinalized⟩, s)

/-- The chain that starts with a snapshot. -/
def withGenesis (genesis : AccountSnapshot) : Except LedgerError Chain :=
  (empty.addSnapshot genesis).map Prod.fst

/-- The snapshot that a block makes of its predecessor's. -/
def succeed (previous : AccountSnapshot) (h : Hasher) (block : Block) : Except LedgerError AccountSnapshot :=
  match h.entityId block with
  | .error e => .error e
  | .ok blockId =>
    let builder := previous.successor blockId block.height
    match builder.transferAll blockId (block.transactions.map ValidatedTransaction.transaction) with
    | .error e => .error e
    | .ok builder => builder.build h

/-- The chain with the snapshot of a block added, and that snapshot. The block is taken to
be admissible, but its transfers are carried out with care. -/
def finalizeBlock (c : Chain) (h : Hasher) (block : Block) : Except FinalizeFault (Chain × AccountSnapshot) :=
  match c.snapshot? block.previousBlockId with
  | none => .error (.refused (.notFound (.block block.previousBlockId)))
  | some previous =>
    match successorHeight? previous.height with
    | none => .error .heightOverflow
    | some expected =>
      if block.height ≠ expected then
        .error (.refused (.invalidArgument (.heightMismatch block.height previous.height)))
      else
        match succeed previous h block with
        | .error e => .error (.refused e)
        | .ok next => (c.addSnapshot next).mapError .refused

end Chain

end StakeLedger
