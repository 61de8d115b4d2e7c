import StakeLedger.Error

/-!
# Errors of a node

What goes wrong around the ledger: files, configuration, entities of an unknown kind, and
components that do not start. `NodeError.message` is the text of an error.
-/

namespace StakeLedger

/-- Why a file cannot be read. -/
inductive FileFault
  /-- There is no such file. -/
  | missing
  /-- The file is not text in UTF-8. -/
  | notText
  deriving DecidableEq

/-- Why a configuration is refused. -/
inductive ConfigurationFault
  /-- The file is not the JSON of a configuration. -/
  | malformed
  /-- No time to start. -/
  | noStartupTime
  /-- No room for requests. -/
  | noCapacity
  /-- Something else, in words. -/
  | refused (reason : String)
  deriving DecidableEq

/-- An error of a node. -/
inductive NodeError
  /-- The ledger refuses. -/
  | ledger (cause : LedgerError)
  /-- A file cannot be read. -/
  | file (fault : FileFault)
  /-- The configuration is refused. -/
  | configuration (fault : ConfigurationFault)
  /-- An entity of a kind that no engine processes. -/
  | unsupportedEntity (typeTag : String)
  /-- Too few components were ready when the time to start was over. -/
  | startupTimeout (ready expected : Nat)
  /-- A component failed while it was started. -/
  | component (name reason : String)
  /-- Nobody serves the inbox any more. -/
  | channelClosed
  deriving DecidableEq

/-- The wording of an unreadable file. -/
def FileFault.message : FileFault → String
  | missing => "No such file or directory (os error 2)"
  | notText => "stream did not contain valid UTF-8"

/-- The wording of a refused configuration. -/
def ConfigurationFault.message : ConfigurationFault → String
  | malformed => "malformed JSON"
  | noStartupTime => "startup_timeout_ms must be positive"
  | noCapacity => "inbox_capacity must be positive"
  | refused reason => reason

/-- The wording of an error. -/
def NodeError.message : NodeError → String
  | ledger cause => "Kernel error: " ++ cause.message
  | file fault => "I/O error: " ++ fault.message
  | configuration fault => "Invalid configuration: " ++ fault.message
  | unsupportedEntity typeTag => "Unsupported entity type " ++ Quoted.string typeTag
  | startupTimeout ready expected => s!"Startup timed out: {ready} of {expected} components ready"
  | component name reason => s!"Component {name} failed: {reason}"
  | channelClosed => "Engine channel closed"

end StakeLedger
