import StakeLedger.Snapshot

/-!
# Snapshot fixtures

A fixture describes a snapshot by its accounts, in JSON: the form of genesis files and of
what is checked offline.
-/

namespace StakeLedger

/-- A snapshot, described by its accounts. -/
structure SnapshotFixture where
  blockId : Identifier
  height : UInt64
  accounts : List Account
  deriving DecidableEq

namespace SnapshotFixture

/-- The snapshot that a fixture describes. An account identifier must not be repeated. -/
def build (f : SnapshotFixture) (h : Hasher) : Except LedgerError AccountSnapshot :=
  match SnapshotBuilder.addAll ⟨f.blockId, f.height, .empty⟩ f.accounts with
  | .error e => .error e
  | .ok builder => builder.build h

/-- The description of a snapshot. -/
def ofSnapshot (s : AccountSnapshot) : SnapshotFixture :=
  ⟨s.blockId, s.height, s.all⟩

instance : Codec SnapshotFixture :=
  Codec.via (fun f => (f.blockId, f.height, f.accounts)) fun (blockId, height, accounts) =>
    ⟨blockId, height, accounts⟩

/-- The fields in order. -/
def fieldNames : List String := ["reference_block_id", "reference_block_height", "accounts"]

instance : JsonForm SnapshotFixture where
  toJson f :=
    .ofMembers [("reference_block_id", toJson f.blockId), ("reference_block_height", toJson f.height),
      ("accounts", toJson f.accounts)]
  ofJson? j := do
    let [blockId, height, accounts] ← Json.fields? false fieldNames j | none
    return ⟨← Json.required? blockId, ← Json.required? height, ← Json.required? accounts⟩

end SnapshotFixture

end StakeLedger
