import StakeLedger.Codec.Varint
import StakeLedger.Error

/-!
# Binary encodings

A `Codec` writes the values of a type as bytes and reads a value from the front of a byte
string, giving back what follows. Encodings compose: that of a pair is the first component's
followed by the second's, that of a list its length followed by its elements. A record is
encoded as the tuple of its fields (`Codec.via`).

* `Codec.ofBytes` reads a value that takes up all the bytes.
* `Codec.Robust` is the class of the codecs with which the program never breaks down. With them
  `Codec.read` is as good as `Codec.ofBytes`.
-/

namespace StakeLedger

/-- A binary form of the values of a type. -/
class Codec (α : Type) where
  /-- The bytes of a value. -/
  encode : α → Bytes
  /-- The value in front, and the bytes after it. -/
  decode : Codec.Reader α

namespace Codec

/-- The value whose encoding is all of the bytes. -/
def ofBytes {α : Type} [Codec α] (bytes : Bytes) : Except (ReadFault LedgerError) α :=
  match decode (α := α) bytes with
  | .error fault => .error (fault.map fun cause => .codec (.decode cause))
  | .ok (value, []) => .ok value
  | .ok (_, rest) =>
    .error (.refused (.codec (.trailing (bytes.length - rest.length) bytes.length)))

/-- The encoding of a record by the encoding of the tuple of its fields. -/
@[reducible]
def via {α β : Type} [Codec β] (fields : α → β) (build : β → α) : Codec α where
  encode a := encode (fields a)
  decode input := (decode input).map fun (b, rest) => (build b, rest)

/-! ## Integers, truth values and identifiers -/

instance : Codec UInt64 where
  encode n := Varint.encode n.toNat
  decode input := (Varint.decode .word64 input).map fun (n, rest) => (UInt64.ofNat n, rest)

/-- A byte stands for itself. -/
instance : Codec UInt8 where
  encode b := [b]
  decode
    | [] => .error (.refused (.unexpectedEnd 1))
    | b :: rest => .ok (b, rest)

/-- A truth value is one byte, zero or one. -/
instance : Codec Bool where
  encode b := [if b then 1 else 0]
  decode
    | [] => .error (.refused (.unexpectedEnd 1))
    | b :: rest =>
      if b = 0 then .ok (false, rest)
      else if b = 1 then .ok (true, rest)
      else .error (.refused (.truthValue b))

/-- An identifier is its 32 bytes, each a unit of its own. -/
instance : Codec Identifier where
  encode x := x.bytes
  decode input :=
    match Identifier.ofBytes? (input.take 32) with
    | some x => .ok (x, input.drop 32)
    | none => .error (.refused (.unexpectedEnd 1))

/-- One of `n` alternatives is written as its number, a 32-bit integer. -/
instance {n : Nat} : Codec (Fin n) where
  encode i := Varint.encode i.val
  decode input :=
    match Varint.decode .word32 input with
    | .error fault => .error fault
    | .ok (found, rest) =>
      if h : found < n then .ok (⟨found, h⟩, rest)
      else .error (.refused (.unknownAlternative found n))

/-! ## Pairs, optional values, lists and strings -/

instance {α β : Type} [Codec α] [Codec β] : Codec (α × β) where
  encode p := encode p.1 ++ encode p.2
  decode input :=
    match decode (α := α) input with
    | .error fault => .error fault
    | .ok (a, rest) => (decode (α := β) rest).map fun (b, rest) => ((a, b), rest)

/-- A mark, zero or one, and the value if there is one. -/
instance {α : Type} [Codec α] : Codec (Option α) where
  encode
    | none => [0]
    | some a => 1 :: encode a
  decode
    | [] => .error (.refused (.unexpectedEnd 1))
    | b :: rest =>
      if b = 0 then .ok (none, rest)
      else if b = 1 then (decode (α := α) rest).map fun (a, rest) => (some a, rest)
      else .error (.refused (.optionMark b))

/-- The given number of values in front, and what follows them. -/
def decodeMany (α : Type) [Codec α] : Nat → Reader (List α)
  | 0, input => .ok ([], input)
  | n + 1, input =>
    match decode (α := α) input with
    | .error fault => .error fault
    | .ok (a, rest) => (decodeMany α n rest).map fun (as, rest) => (a :: as, rest)

/-- The length, then the elements. -/
instance {α : Type} [Codec α] : Codec (List α) where
  encode as := Varint.encode as.length ++ as.flatMap encode
  decode input :=
    match Varint.decode .length input with
    | .error fault => .error fault
    | .ok (n, rest) => decodeMany α n rest

/-- The length of the texts from which on they are not even looked for. -/
def addressLimit : Nat := 0x8000000000000000

/-- The number of bytes, a 64-bit integer, then the text in UTF-8. -/
instance : Codec String where
  encode s := Varint.encode (Utf8.ofString s).length ++ Utf8.ofString s
  decode input :=
    match Varint.decode .word64 input with
    | .error fault => .error fault
    | .ok (n, rest) =>
      if addressLimit ≤ n then .error (.unaddressable n)
      else
        match Varint.takeUnit n rest with
        | .error fault => .error fault
        | .ok (body, rest) =>
          match Utf8.decode body with
          | .error fault => .error (.refused (.text fault))
          | .ok text => .ok (String.ofList text, rest)

/-! ## Codecs that never break down -/

/-- A codec with which bytes are read or refused. Only where a text is read can the program break
down. -/
class Robust (α : Type) [Codec α] : Prop where
  isBreakdown_decode (input : Bytes) : ReadFault.isBreakdown (decode (α := α) input) = false

export Robust (isBreakdown_decode)

section

variable {α β : Type} [Codec α] [Codec β]

instance : Robust UInt64 where
  isBreakdown_decode input := by
    simp only [decode, ReadFault.isBreakdown_map, Varint.isBreakdown_decode]

instance : Robust UInt8 where
  isBreakdown_decode input := by
    cases input <;> rfl

instance : Robust Bool where
  isBreakdown_decode input := by
    cases input with
    | nil => rfl
    | cons b rest =>
      simp only [decode]
      split
      · rfl
      · split <;> rfl

instance : Robust Identifier where
  isBreakdown_decode input := by
    simp only [decode]
    split <;> rfl

instance {n : Nat} : Robust (Fin n) where
  isBreakdown_decode input := by
    have hnumber := Varint.isBreakdown_decode .word32 input
    simp only [decode]
    split
    · next hfault => simpa [hfault] using hnumber
    · split <;> rfl

instance [Robust α] [Robust β] : Robust (α × β) where
  isBreakdown_decode input := by
    have hfirst := isBreakdown_decode (α := α) input
    simp only [decode]
    split
    · next hfault => simpa [hfault] using hfirst
    · simp only [ReadFault.isBreakdown_map, isBreakdown_decode]

instance [Robust α] : Robust (Option α) where
  isBreakdown_decode input := by
    cases input with
    | nil => rfl
    | cons b rest =>
      simp only [decode]
      split
      · rfl
      · split
        · simp only [ReadFault.isBreakdown_map, isBreakdown_decode]
        · rfl

theorem isBreakdown_decodeMany [Robust α] (n : Nat) (input : Bytes) :
    ReadFault.isBreakdown (decodeMany α n input) = false := by
  induction n generalizing input with
  | zero => rfl
  | succ n ih =>
    have hfirst := isBreakdown_decode (α := α) input
    rw [decodeMany]
    split
    · next hfault => simpa [hfault] using hfirst
    · simp only [ReadFault.isBreakdown_map, ih]

instance [Robust α] : Robust (List α) where
  isBreakdown_decode input := by
    have hlength := Varint.isBreakdown_decode .length input
    simp only [decode]
    split
    · next hfault => simpa [hfault] using hlength
    · exact isBreakdown_decodeMany _ _

end

/-- A record is read or refused if its fields are. -/
theorem Robust.via {α β : Type} [Codec β] [Robust β] (fields : α → β) (build : β → α) :
    @Robust α (.via fields build) := by
  let _ : Codec α := .via fields build
  exact ⟨fun input => by simp only [decode, ReadFault.isBreakdown_map, isBreakdown_decode]⟩

theorem isBreakdown_ofBytes {α : Type} [Codec α] [Robust α] (bytes : Bytes) :
    ReadFault.isBreakdown (ofBytes (α := α) bytes) = false := by
  have hread := isBreakdown_decode (α := α) bytes
  rw [ofBytes]
  split
  · next hfault => simpa [hfault] using hread
  · rfl
  · rfl

/-- The value whose encoding is all of the bytes, read by a codec that never breaks down. -/
def read {α : Type} [Codec α] [Robust α] (bytes : Bytes) : Except LedgerError α :=
  match ofBytes (α := α) bytes, isBreakdown_ofBytes (α := α) bytes with
  | .ok value, _ => .ok value
  | .error (.refused cause), _ => .error cause
  | .error (.unaddressable _), h => nomatch h

/-- Nothing is lost: the value or the refusal is that of all the bytes. -/
theorem read_cases {α : Type} [Codec α] [Robust α] (bytes : Bytes) :
    (∃ a : α, read bytes = .ok a ∧ ofBytes bytes = .ok a) ∨
      ∃ cause, read (α := α) bytes = .error cause ∧
        ofBytes (α := α) bytes = .error (.refused cause) := by
  unfold read
  split
  · next hread _ => exact .inl ⟨_, rfl, hread⟩
  · next hread _ => exact .inr ⟨_, rfl, hread⟩
  · next hfatal _ _ => nomatch hfatal

theorem read_eq_ok_iff {α : Type} [Codec α] [Robust α] {bytes : Bytes} {a : α} :
    read bytes = .ok a ↔ ofBytes bytes = .ok a := by
  rcases read_cases (α := α) bytes with ⟨b, hread, hbytes⟩ | ⟨cause, hread, hbytes⟩ <;>
    simp [hread, hbytes]

theorem read_eq_error_iff {α : Type} [Codec α] [Robust α] {bytes : Bytes} {cause : LedgerError} :
    read (α := α) bytes = .error cause ↔ ofBytes (α := α) bytes = .error (.refused cause) := by
  rcases read_cases (α := α) bytes with ⟨b, hread, hbytes⟩ | ⟨cause', hread, hbytes⟩ <;>
    simp [hread, hbytes]

end Codec

end StakeLedger
