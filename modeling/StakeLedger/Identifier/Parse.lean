import StakeLedger.Error

/-!
# Reading identifiers

`Identifier.ofBytes` takes exactly 32 bytes, and `Identifier.parse` takes the text of an
identifier and nothing else; both say why they refuse.
-/

namespace StakeLedger.Identifier

/-- The identifier with the given bytes. -/
def ofBytes (bytes : Bytes) : Except LedgerError Identifier :=
  match ofBytes? bytes with
  | some x => .ok x
  | none => .error (.invalidSize size bytes.length)

/-- The identifier with the given text. -/
def parse (s : String) : Except LedgerError Identifier :=
  match s.toList with
  | c :: body =>
    if c = announcer then
      match Base58.decode body with
      | .error fault => .error (.invalidEncoding (.base58 fault))
      | .ok bytes =>
        match ofBytes? bytes with
        | some x => .ok x
        | none => .error (.invalidEncoding (.length bytes.length))
    else .error (.invalidEncoding .noAnnouncer)
  | [] => .error (.invalidEncoding .noAnnouncer)

end StakeLedger.Identifier
