import StakeLedger.Error

/-!
# Failed checks

Why a check of a snapshot file fails: what was being done, and what the ledger said to it.
-/

namespace StakeLedger

/-- Why a check fails. -/
inductive CheckError
  /-- The file cannot be read. -/
  | unreadable
  /-- The file is not the JSON of a fixture. -/
  | malformed
  /-- The file is not a sound container. -/
  | container (cause : LedgerError)
  /-- The fixture describes no snapshot. -/
  | fixture (cause : LedgerError)
  /-- There is no assignment. -/
  | assignment (cause : LedgerError)
  /-- There is no proof for an account. -/
  | proof (account : Identifier) (cause : LedgerError)
  /-- The snapshot does not fit into a container. -/
  | packing (cause : LedgerError)
  deriving DecidableEq

namespace CheckError

/-- The wording of what was being done. -/
def context : CheckError → String
  | unreadable => "Failed to read snapshot"
  | malformed => "Failed to parse snapshot JSON"
  | container _ => "Failed to decode snapshot container"
  | fixture _ => "Invalid snapshot fixture"
  | assignment _ => "Assignment failed"
  | proof account _ => s!"No proof for account {account}"
  | packing _ => "Failed to encode snapshot"

/-- The error of the ledger behind a failed check. -/
def cause? : CheckError → Option LedgerError
  | unreadable | malformed => none
  | container cause | fixture cause | assignment cause | proof _ cause | packing cause => some cause

/-- The wording of a failed check. -/
def message (e : CheckError) : String :=
  match e.cause? with
  | none => e.context
  | some cause => e.context ++ ": " ++ cause.message

end CheckError

end StakeLedger
