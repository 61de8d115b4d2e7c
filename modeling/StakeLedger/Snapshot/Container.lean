import StakeLedger.Snapshot

/-!
# The snapshot container

The binary file of a snapshot:

* four bytes `LGSN`, and the schema's number in four bytes;
* the block's identifier, the height in eight bytes, the number of accounts in four;
* for each account, in the order of the identifiers, the length of its encoding in four
  bytes and the encoding;
* the root of the accounts' tree.

Numbers are written least significant byte first. Reading rebuilds the tree and compares its
root with the stored one.
-/

namespace StakeLedger.Container

/-- The first four bytes of a container. -/
def magic : Bytes := [0x4C, 0x47, 0x53, 0x4E]

/-- The number of the schema. -/
def schemaVersion : Nat := 1

/-! ## Writing -/

/-- The four bytes of a length. -/
def lengthField (what : String) (n : Nat) : Except LedgerError Bytes :=
  if n < UInt32.size then .ok (Bytes.littleEndian 4 n) else .error (.codec (.lengthOverflow what n))

/-- The record of an account. -/
def encodeRecord (a : Account) : Except LedgerError Bytes :=
  (lengthField "account" (Codec.encode a).length).map (· ++ Codec.encode a)

/-- The records of accounts, one after the other. -/
def encodeRecords : List Account → Except LedgerError Bytes
  | [] => .ok []
  | a :: rest =>
    match encodeRecord a with
    | .error e => .error e
    | .ok record => (encodeRecords rest).map (record ++ ·)

/-- The container of a snapshot. -/
def encode (s : AccountSnapshot) : Except LedgerError Bytes :=
  match lengthField "account count" s.all.length with
  | .error e => .error e
  | .ok count =>
    (encodeRecords s.all).map fun records =>
      magic ++ Bytes.littleEndian 4 schemaVersion ++ s.blockId.bytes ++
        Bytes.littleEndian 8 s.height.toNat ++ count ++ records ++ s.accountsRoot.bytes

/-! ## Reading -/

/-- The first bytes of what remains of a container. -/
def take (n : Nat) (input : Bytes) : Except LedgerError (Bytes × Bytes) :=
  match Bytes.split? n input with
  | some parts => .ok parts
  | none => .error (.codec .truncatedContainer)

/-- A number of the given width in front of what remains. -/
def takeNumber (width : Nat) (input : Bytes) : Except LedgerError (Nat × Bytes) :=
  (take width input).map fun (digits, rest) => (Bytes.ofLittleEndian digits, rest)

/-- An identifier in front of what remains. -/
def takeIdentifier (input : Bytes) : Except LedgerError (Identifier × Bytes) :=
  match Identifier.ofBytes? (input.take 32) with
  | some x => .ok (x, input.drop 32)
  | none => .error (.codec .truncatedContainer)

/-- The account of the record in front of what remains. -/
def takeRecord (input : Bytes) : Except LedgerError (Account × Bytes) := do
  let (length, rest) ← takeNumber 4 input
  match Bytes.split? length rest with
  | none => .error (.codec (.recordLength length rest.length))
  | some (record, rest) =>
    let account ← Codec.read record
    return (account, rest)

/-- The builder with the accounts of the given number of records added, and what follows the
records. -/
def takeRecords (b : SnapshotBuilder) : Nat → Bytes → Except LedgerError (SnapshotBuilder × Bytes)
  | 0, input => .ok (b, input)
  | n + 1, input => do
    let (account, rest) ← takeRecord input
    let b ← b.add account
    takeRecords b n rest

/-- What follows the first four bytes and the schema's number. -/
def takeHeader (input : Bytes) : Except LedgerError Bytes := do
  let (front, rest) ← take 4 input
  if front ≠ magic then .error (.codec .containerMagic)
  else
    let (version, rest) ← takeNumber 4 rest
    if version ≠ schemaVersion then .error (.codec (.containerSchema version)) else return rest

/-- The snapshot of a container. -/
def decode (input : Bytes) (h : Hasher) : Except LedgerError AccountSnapshot := do
  let rest ← takeHeader input
  let (blockId, rest) ← takeIdentifier rest
  let (height, rest) ← takeNumber 8 rest
  let (count, rest) ← takeNumber 4 rest
  let (builder, rest) ← takeRecords ⟨blockId, UInt64.ofNat height, .empty⟩ count rest
  let (stored, rest) ← takeIdentifier rest
  if !rest.isEmpty then .error (.codec .containerTrailing)
  else
    let snapshot ← builder.build h
    if snapshot.accountsRoot ≠ stored then
      .error (.codec (.rootMismatch stored snapshot.accountsRoot))
    else return snapshot

end StakeLedger.Container
