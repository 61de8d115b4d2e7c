import StakeLedger.Codec.DecodeError

/-!
# Integers of variable length

An integer below 251 is one byte. A larger one is a marker, 251, 252 or 253, followed by
two, four or eight bytes, least significant first. Writing takes the shortest form; reading
accepts the longer ones too, as long as the marker fits the expected width.
-/

namespace StakeLedger.Varint

/-- The first bytes of an input as one unit of the given size. -/
def takeUnit (size : Nat) : Codec.Reader Bytes := fun input =>
  match Bytes.split? size input with
  | some parts => .ok parts
  | none => .error (.refused (.unexpectedEnd (size - input.length)))

/-- The shortest form of an integer below 2^64. -/
def encode (n : Nat) : Bytes :=
  if n < 251 then [UInt8.ofNat n]
  else if n < 0x10000 then 251 :: Bytes.littleEndian 2 n
  else if n < 0x100000000 then 252 :: Bytes.littleEndian 4 n
  else 253 :: Bytes.littleEndian 8 n

/-- An integer of the given number of bytes, and what follows it. -/
def decodeFixed (size : Nat) : Codec.Reader Nat := fun input =>
  (takeUnit size input).map fun (unit, rest) => (Bytes.ofLittleEndian unit, rest)

/-- The width that a refusal calls the expected one, with the given number of bytes at hand,
the marker included. Where a 64-bit integer would be complete, it is called a 32-bit one. -/
def statedWidth (expected : IntegerWidth) (available : Nat) : IntegerWidth :=
  if expected = .word64 ∧ 9 ≤ available then .word32 else expected

/-- An integer of the expected width, and what follows it. -/
def decode (expected : IntegerWidth) : Codec.Reader Nat
  | [] => .error (.refused (.unexpectedEnd 1))
  | b :: rest =>
    if b < 251 then .ok (b.toNat, rest)
    else if b = 251 then decodeFixed 2 rest
    else if b = 252 then decodeFixed 4 rest
    else if b = 253 then
      if expected = .word32 then .error (.refused (.integerWidth expected .word64))
      else decodeFixed 8 rest
    else
      .error (.refused (.integerWidth (statedWidth expected (rest.length + 1))
        (if b = 254 then .word128 else .reserved)))

/-- Integers are read or refused. -/
theorem isBreakdown_decode (expected : IntegerWidth) (input : Bytes) :
    ReadFault.isBreakdown (decode expected input) = false := by
  have hunit : ∀ size input, ReadFault.isBreakdown (takeUnit size input) = false := by
    intro size input
    rw [takeUnit]
    split <;> rfl
  have hfixed : ∀ size input, ReadFault.isBreakdown (decodeFixed size input) = false := by
    intro size input
    rw [decodeFixed, ReadFault.isBreakdown_map, hunit]
  unfold decode
  repeat' split
  all_goals simp [hfixed]

end StakeLedger.Varint
