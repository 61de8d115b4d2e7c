import StakeLedger.Chain
import StakeLedger.Node.Settings
import StakeLedger.Snapshot.Fixture

/-!
# Genesis

The chain of a node starts with a snapshot that a JSON file describes.
-/

namespace StakeLedger

/-- The chain that starts with the snapshot of a file, given the file's bytes if it exists. -/
def Chain.ofGenesisFile (file : Option Bytes) (h : Hasher) : Except NodeError Chain :=
  match (readJsonFile file : Except NodeError SnapshotFixture) with
  | .error e => .error e
  | .ok fixture => ((fixture.build h).bind Chain.withGenesis).mapError .ledger

/-- The chain with which a node starts: the one of the genesis file that the settings name,
or the one without snapshots. The files are looked up by name. -/
def Settings.openChain (s : Settings) (files : String → Option Bytes) (h : Hasher) : Except NodeError Chain :=
  match s.genesisPath with
  | none => .ok .empty
  | some path => Chain.ofGenesisFile (files path) h

/-- The settings and the chain with which a node starts, given the bytes of its settings file
if that exists. -/
def Settings.openNode (file : Option Bytes) (files : String → Option Bytes) (h : Hasher) :
    Except NodeError (Settings × Chain) :=
  match Settings.read file with
  | .error e => .error e
  | .ok settings => (settings.openChain files h).map fun chain => (settings, chain)

end StakeLedger
