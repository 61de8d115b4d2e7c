import StakeLedger.Bytes
import StakeLedger.Radix

/-!
# Base58

Byte strings as text in the 58 letters and digits that are hard to confuse. The bytes are
read as one number in base 256 and written in base 58; each leading zero byte is written as
a leading `1`, the digit zero.

* `encode` writes a byte string and `decode` reads one, or names the first character that
  is not a digit.
-/

namespace StakeLedger.Base58

/-- The digits in order of value. -/
def alphabet : List Char :=
  "123456789ABCDEFGHJKLMNPQRSTUVWXYZabcdefghijkmnopqrstuvwxyz".toList

/-- The digit of a value below 58. -/
def symbol (value : Nat) : Char :=
  alphabet.getD value '1'

/-- The value of a digit. -/
def value? (c : Char) : Option Nat :=
  alphabet.idxOf? c

/-- Why a text is not base58. Positions count characters from zero. -/
inductive Fault
  /-- A character outside ASCII. -/
  | nonAscii (position : Nat)
  /-- An ASCII character that is not a digit. -/
  | invalidCharacter (c : Char) (position : Nat)
  deriving DecidableEq

/-- The text of a byte string. -/
def encode (bytes : Bytes) : List Char :=
  ((bytes.takeWhile (· == 0)).map fun _ => '1') ++
    (Radix.digits 58 (Radix.ofDigits 256 (bytes.map UInt8.toNat))).map symbol

/-- The values of the digits of a text whose first character stands at `position`. -/
def values (position : Nat) : List Char → Except Fault (List Nat)
  | [] => .ok []
  | c :: rest =>
    if 128 ≤ c.toNat then .error (.nonAscii position)
    else
      match value? c with
      | none => .error (.invalidCharacter c position)
      | some v => (values (position + 1) rest).map (v :: ·)

/-- The byte string that a text denotes. -/
def decode (text : List Char) : Except Fault Bytes :=
  (values 0 text).map fun vs =>
    ((vs.takeWhile (· == 0)).map fun _ => 0) ++
      (Radix.digits 256 (Radix.ofDigits 58 vs)).map UInt8.ofNat

theorem value?_symbol : ∀ v < 58, value? (symbol v) = some v := by decide +kernel

end StakeLedger.Base58
