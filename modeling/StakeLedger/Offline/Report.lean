import StakeLedger.Assignment
import StakeLedger.Offline.CheckError
import StakeLedger.Snapshot.Container
import StakeLedger.Snapshot.Fixture

/-!
# Offline checks

Checks of a snapshot file without a node: of its root, of an assignment made from it, of the
proof for an account. A snapshot file is a container or a fixture, and its first bytes tell
which.

* `AccountSnapshot.ofFile` is the snapshot of a file.
* `RootReport`, `AssignReport` and `ProveReport` are what the checks report.
-/

namespace StakeLedger

/-- The snapshot of a file, given the file's bytes if it exists. -/
def AccountSnapshot.ofFile (file : Option Bytes) (h : Hasher) : Except CheckError AccountSnapshot :=
  match file with
  | none => .error .unreadable
  | some bytes =>
    if Container.magic.isPrefixOf bytes then (Container.decode bytes h).mapError .container
    else
      match (Json.read? bytes : Option SnapshotFixture) with
      | none => .error .malformed
      | some fixture => (fixture.build h).mapError .fixture

/-- The container of a snapshot, to be written to a file. -/
def AccountSnapshot.pack (s : AccountSnapshot) : Except CheckError Bytes :=
  (Container.encode s).mapError .packing

/-- A snapshot's block, height, size and root. -/
structure RootReport where
  blockId : Identifier
  height : UInt64
  accounts : Nat
  accountsRoot : Identifier
  deriving DecidableEq

namespace RootReport

/-- The report on a snapshot. -/
def ofSnapshot (s : AccountSnapshot) : RootReport :=
  ⟨s.blockId, s.height, s.size, s.accountsRoot⟩

/-- The report in JSON. -/
def json (r : RootReport) : Json :=
  .ofMembers [("reference_block_id", toJson r.blockId), ("reference_block_height", toJson r.height),
    ("accounts", .ofNat r.accounts), ("accounts_root", toJson r.accountsRoot)]

end RootReport

/-- An assignment and what it was made for. -/
structure AssignReport where
  entity : Identifier
  tag : String
  minStake : UInt64
  members : List Identifier
  deriving DecidableEq

namespace AssignReport

/-- The report on an assignment made from a snapshot. -/
def ofSnapshot (s : AccountSnapshot) (h : Hasher) (entity : Identifier) (tag : String) (count : Nat)
    (minStake : UInt64) : Except CheckError AssignReport :=
  match (Assigner.mk h minStake).assign entity tag s.all count with
  | .error cause => .error (.assignment cause)
  | .ok assignment => .ok ⟨entity, tag, minStake, assignment.members⟩

/-- The report in JSON. -/
def json (r : AssignReport) : Json :=
  .ofMembers [("entity", toJson r.entity), ("tag", toJson r.tag), ("min_stake", toJson r.minStake),
    ("members", toJson r.members)]

end AssignReport

/-- An account with its proof, and whether the proof holds. -/
structure ProveReport where
  authenticated : Authenticated Account
  verified : Bool
  deriving DecidableEq

namespace ProveReport

/-- The report on an account of a snapshot. -/
def ofSnapshot (s : AccountSnapshot) (h : Hasher) (account : Identifier) : Except CheckError ProveReport :=
  match s.authenticated account with
  | .error cause => .error (.proof account cause)
  | .ok authenticated => .ok ⟨authenticated, authenticated.verifyAgainst h s.accountsRoot⟩

/-- The report in JSON. -/
def json (r : ProveReport) : Json :=
  .ofMembers [("authenticated", toJson r.authenticated), ("verified", toJson r.verified)]

end ProveReport

end StakeLedger
