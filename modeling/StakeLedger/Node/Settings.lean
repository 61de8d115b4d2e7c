import StakeLedger.Node.Error
import StakeLedger.Parameters

/-!
# Settings of a node

The settings of a node are read from a JSON file, in which everything may be left out.

* `Settings.read` reads the file's bytes and checks the settings.
-/

namespace StakeLedger

/-- The settings of a node. -/
structure Settings where
  protocol : Parameters := {}
  /-- The milliseconds in which every component has to be ready. -/
  startupTimeout : UInt64 := 5000
  /-- What is logged. -/
  logFilter : String := "ledger_node=debug,ledger_kernel=info"
  /-- The file of the snapshot with which the chain starts. -/
  genesisPath : Option String := none
  /-- How many requests the inbox holds. -/
  inboxCapacity : UInt64 := 1024
  deriving DecidableEq

namespace Settings

instance : Inhabited Settings := ⟨{}⟩

/-- Whether the settings make sense, and the first reason why not. -/
def validate (s : Settings) : Except NodeError Unit :=
  match s.protocol.validate with
  | .error cause => .error (.ledger cause)
  | .ok () =>
    if s.startupTimeout = 0 then .error (.configuration .noStartupTime)
    else if s.inboxCapacity = 0 then .error (.configuration .noCapacity)
    else .ok ()

/-- The fields in order. -/
def fieldNames : List String :=
  ["protocol", "startup_timeout_ms", "log_filter", "genesis_path", "inbox_capacity"]

/-- An absent field has its default. -/
instance : JsonForm Settings where
  toJson s :=
    .ofMembers [("protocol", toJson s.protocol), ("startup_timeout_ms", toJson s.startupTimeout),
      ("log_filter", toJson s.logFilter), ("genesis_path", toJson s.genesisPath),
      ("inbox_capacity", toJson s.inboxCapacity)]
  ofJson? j := do
    let [protocol, timeout, logFilter, genesisPath, capacity] ← Json.fields? true fieldNames j | none
    let standard : Settings := {}
    return ⟨← Json.orDefault? standard.protocol protocol,
      ← Json.orDefault? standard.startupTimeout timeout,
      ← Json.orDefault? standard.logFilter logFilter,
      ← Json.orDefault? standard.genesisPath genesisPath,
      ← Json.orDefault? standard.inboxCapacity capacity⟩

end Settings

/-- The value that a JSON file denotes, given the bytes of the file if it exists. The file
has to be text throughout. -/
def readJsonFile {α : Type} [JsonForm α] (file : Option Bytes) : Except NodeError α :=
  match file with
  | none => .error (.file .missing)
  | some bytes =>
    match Utf8.decode bytes with
    | .error _ => .error (.file .notText)
    | .ok _ =>
      match Json.read? bytes with
      | none => .error (.configuration .malformed)
      | some value => .ok value

/-- The checked settings of a file, given its bytes if it exists. -/
def Settings.read (file : Option Bytes) : Except NodeError Settings :=
  match (readJsonFile file : Except NodeError Settings) with
  | .error e => .error e
  | .ok settings => settings.validate.map fun () => settings

end StakeLedger
