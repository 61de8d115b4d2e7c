import StakeLedger.Codec.DecodeError
import StakeLedger.Identifier
import StakeLedger.Text.Quoted

/-!
# Errors

A `LedgerError` is of one of six kinds, and within its kind says exactly what was wrong.
The wording stands apart from the causes: `LedgerError.message` is the text of an error.
-/

namespace StakeLedger

/-- Why a text is not the form of an identifier. -/
inductive EncodingFault
  /-- The announcing letter is missing. -/
  | noAnnouncer
  /-- The rest is not base58. -/
  | base58 (fault : Base58.Fault)
  /-- The rest denotes another number of bytes than 32. -/
  | length (found : Nat)
  deriving DecidableEq

/-- Why an argument is refused. -/
inductive ArgumentFault
  /-- Parameters that assign no validator to a transaction. -/
  | noValidators
  /-- Parameters whose threshold is zero or more than there are validators. -/
  | thresholdOutOfRange (validators threshold : UInt64)
  /-- Parameters by which no block has an admissible size. -/
  | blockBounds (min max : UInt64)
  /-- An encoded entity of another kind than expected. -/
  | tagMismatch (expected found : String)
  /-- An entity without a payload to digest. -/
  | emptyPayload (tag : String)
  /-- A public key that is not a point of the curve. -/
  | malformedKey
  /-- An entity without an identity, with what its encoder said. -/
  | malformedEntity (reason : String)
  /-- A second account with one identifier. -/
  | duplicateAccount (id : Identifier)
  /-- A member that is assigned already. -/
  | alreadyAssigned (id : Identifier)
  /-- A request for an assignment without members. -/
  | emptyAssignment
  /-- Another snapshot for a block that has one. -/
  | conflictingSnapshot (block : Identifier)
  /-- A block that does not stand one above its predecessor. -/
  | heightMismatch (height parent : UInt64)
  /-- A transfer of more than the sender has. -/
  | overdraft (sender : Identifier) (balance amount : UInt64)
  /-- A transfer after which the receiver would have more than can be written. -/
  | balanceOverflow (receiver : Identifier)
  deriving DecidableEq

/-- What was looked for and is not there. -/
inductive Missing
  /-- An entity of a tree. -/
  | entity (id : Identifier)
  /-- An account of a snapshot. -/
  | account (id : Identifier)
  /-- The snapshot of a block. -/
  | block (id : Identifier)
  /-- The account of a transfer's sender. -/
  | sender (id : Identifier)
  /-- The account of a transfer's receiver. -/
  | receiver (id : Identifier)
  /-- The proposer of the block after a block. -/
  | proposer (block : Identifier)
  deriving DecidableEq

/-- Why bytes cannot be read, or a value cannot be written. -/
inductive CodecFault
  /-- The bytes are not an encoding of the value's type. -/
  | decode (cause : DecodeError)
  /-- Bytes follow the encoding. -/
  | trailing (consumed length : Nat)
  /-- The entity refuses to be encoded. -/
  | unencodable (reason : String)
  /-- A snapshot container ends too early. -/
  | truncatedContainer
  /-- A file that does not start like a snapshot container. -/
  | containerMagic
  /-- A snapshot container of an unknown schema. -/
  | containerSchema (version : Nat)
  /-- An account record that is longer than what remains. -/
  | recordLength (length remaining : Nat)
  /-- Bytes follow a snapshot container. -/
  | containerTrailing
  /-- The accounts of a container have another root than it states. -/
  | rootMismatch (stored rebuilt : Identifier)
  /-- A length that its field cannot hold. -/
  | lengthOverflow (what : String) (length : Nat)
  deriving DecidableEq

/-- An error of the ledger. -/
inductive LedgerError
  /-- A value of fixed size was given another number of bytes. -/
  | invalidSize (expected found : Nat)
  /-- A text is not the form of an identifier. -/
  | invalidEncoding (fault : EncodingFault)
  /-- An argument is refused. -/
  | invalidArgument (fault : ArgumentFault)
  /-- Something is not there. -/
  | notFound (what : Missing)
  /-- Fewer accounts are eligible than are to be assigned. -/
  | insufficientCandidates (requested available : Nat)
  /-- Something cannot be read or written. -/
  | codec (fault : CodecFault)
  deriving DecidableEq

/-! ## Wording -/

/-- The wording of a character that is not base58. -/
def Base58.Fault.message : Base58.Fault → String
  | nonAscii position =>
    s!"provided string contained non-ascii character starting at byte {position}"
  | invalidCharacter c position =>
    "provided string contained invalid character " ++ Quoted.char c ++ s!" at byte {position}"

/-- The wording of a text that is not the form of an identifier. -/
def EncodingFault.message : EncodingFault → String
  | noAnnouncer => "missing 'z' multibase prefix"
  | base58 fault => fault.message
  | length found => s!"decoded {found} bytes, expected 32"

/-- The wording of a refused argument. -/
def ArgumentFault.message : ArgumentFault → String
  | noValidators => "validators_per_entity must be positive"
  | thresholdOutOfRange validators threshold =>
    s!"signature_threshold must be in 1..={validators}, got {threshold}"
  | blockBounds min max => s!"invalid block size bounds [{min}, {max}]"
  | tagMismatch expected found =>
    "type tag mismatch: expected " ++ Quoted.string expected ++ ", got " ++ Quoted.string found
  | emptyPayload tag => s!"empty {tag} payload"
  | malformedKey => "malformed key material: signature error: Cannot decompress Edwards point"
  | malformedEntity reason => reason
  | duplicateAccount id => s!"duplicate account {id}"
  | alreadyAssigned id => s!"{id} already assigned"
  | emptyAssignment => "assignment size must be positive"
  | conflictingSnapshot block => s!"conflicting snapshot for block {block}"
  | heightMismatch height parent => s!"block height {height} does not follow {parent}"
  | overdraft sender balance amount => s!"sender {sender} balance {balance} below {amount}"
  | balanceOverflow receiver => s!"receiver {receiver} balance overflow"

/-- The wording of something missing. -/
def Missing.message : Missing → String
  | entity id => s!"entity {id}"
  | account id => s!"account {id}"
  | block id => s!"block {id}"
  | sender id => s!"sender {id}"
  | receiver id => s!"receiver {id}"
  | proposer id => s!"proposer for {id}"

/-- The wording of something unreadable or unwritable. -/
def CodecFault.message : CodecFault → String
  | decode cause => cause.message
  | trailing consumed length => s!"trailing bytes: consumed {consumed} of {length}"
  | unencodable reason => reason
  | truncatedContainer => "truncated snapshot: failed to fill whole buffer"
  | containerMagic => "invalid magic"
  | containerSchema version => s!"unsupported schema version {version}"
  | recordLength length remaining => s!"account length {length} exceeds remaining {remaining}"
  | containerTrailing => "trailing bytes after snapshot"
  | rootMismatch stored rebuilt => s!"accounts root mismatch: stored {stored}, rebuilt {rebuilt}"
  | lengthOverflow what length => s!"{what} length {length} exceeds u32"

namespace LedgerError

/-- The wording of an error. -/
def message : LedgerError → String
  | invalidSize expected found => s!"Invalid size: expected {expected} bytes, found {found}"
  | invalidEncoding fault => "Invalid encoding: " ++ fault.message
  | invalidArgument fault => "Invalid argument: " ++ fault.message
  | notFound what => "Not found: " ++ what.message
  | insufficientCandidates requested available =>
    s!"Insufficient candidates: requested {requested}, available {available}"
  | codec fault => "Codec error: " ++ fault.message

/-- Whether an error is about malformed input: its size, its text or an argument. -/
def isInvalidArgument : LedgerError → Bool
  | invalidSize _ _ | invalidEncoding _ | invalidArgument _ => true
  | _ => false

/-- Whether an error is about something missing. -/
def isNotFound : LedgerError → Bool
  | notFound _ => true
  | _ => false

end LedgerError

end StakeLedger
