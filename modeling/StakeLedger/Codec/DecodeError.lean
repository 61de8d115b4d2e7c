import StakeLedger.Text.Utf8

/-!
# Why an encoding cannot be read

The causes for which bytes are refused as the encoding of a value, and their wording.

* `ReadFault` keeps apart from the refusals that the program breaks down. That it runs out of
  memory, for a text or a list of a length below the limit, is not described.
-/

namespace StakeLedger

/-- The width that an integer's marker announces, or that its place asks for. -/
inductive IntegerWidth
  /-- A 32-bit integer. -/
  | word32
  /-- A 64-bit integer. -/
  | word64
  /-- A length. -/
  | length
  /-- A 128-bit integer. -/
  | word128
  /-- A marker without meaning. -/
  | reserved
  deriving DecidableEq

/-- The name of a width in messages. -/
def IntegerWidth.name : IntegerWidth → String
  | word32 => "U32"
  | word64 => "U64"
  | length => "Usize"
  | word128 => "U128"
  | reserved => "Reserved"

/-- Why bytes are not the encoding of a value. -/
inductive DecodeError
  /-- The bytes end within a unit that needs more of them. -/
  | unexpectedEnd (additional : Nat)
  /-- An integer is announced with a width that does not fit its place. -/
  | integerWidth (expected found : IntegerWidth)
  /-- Neither of the two bytes of a truth value. -/
  | truthValue (found : UInt8)
  /-- Neither of the two marks of an optional value. -/
  | optionMark (found : UInt8)
  /-- An alternative that does not exist. -/
  | unknownAlternative (found count : Nat)
  /-- A text that is not UTF-8. -/
  | text (fault : Utf8.Fault)
  deriving DecidableEq

/-- Why no value is read, where the causes of a refusal are of type `ε`. -/
inductive ReadFault (ε : Type)
  /-- A text is announced that is longer than can be addressed. The program breaks down: it neither
  gives a value nor refuses the bytes. -/
  | unaddressable (length : Nat)
  /-- The bytes are refused. -/
  | refused (cause : ε)
  deriving DecidableEq

namespace ReadFault

variable {ε δ α β : Type}

/-- The fault with another account of why the bytes are refused. -/
def map (f : ε → δ) : ReadFault ε → ReadFault δ
  | unaddressable length => unaddressable length
  | refused cause => refused (f cause)

/-- Whether a fault is that the program breaks down. -/
def isFatal : ReadFault ε → Bool
  | unaddressable _ => true
  | refused _ => false

/-- Whether the program breaks down instead of giving a result. -/
def isBreakdown : Except (ReadFault ε) α → Bool
  | .error fault => fault.isFatal
  | .ok _ => false

@[simp]
theorem isBreakdown_ok (a : α) : isBreakdown (.ok a : Except (ReadFault ε) α) = false := rfl

@[simp]
theorem isBreakdown_error (fault : ReadFault ε) :
    isBreakdown (.error fault : Except (ReadFault ε) α) = fault.isFatal := rfl

@[simp]
theorem isFatal_refused (cause : ε) : (refused cause).isFatal = false := rfl

@[simp]
theorem isFatal_map (f : ε → δ) (fault : ReadFault ε) : (fault.map f).isFatal = fault.isFatal := by
  cases fault <;> rfl

@[simp]
theorem isBreakdown_map (f : α → β) (result : Except (ReadFault ε) α) :
    isBreakdown (result.map f) = isBreakdown result := by
  cases result <;> rfl

end ReadFault

/-- What is taken from the front of a byte string, and what is left. -/
abbrev Codec.Reader (α : Type) := Bytes → Except (ReadFault DecodeError) (α × Bytes)

/-- The wording of the length of an unreadable sequence. -/
def Utf8.Fault.lengthText (f : Utf8.Fault) : String :=
  match f.length? with
  | none => "None"
  | some n => s!"Some({n})"

/-- The wording of a refusal. -/
def DecodeError.message : DecodeError → String
  | unexpectedEnd additional => s!"UnexpectedEnd \x7b additional: {additional} \x7d"
  | integerWidth expected found =>
    s!"InvalidIntegerType \x7b expected: {expected.name}, found: {found.name} \x7d"
  | truthValue found => s!"InvalidBooleanValue({found.toNat})"
  | optionMark found =>
    "UnexpectedVariant \x7b type_name: \"Option<T>\", allowed: Range \x7b min: 0, max: 1 \x7d, " ++
      s!"found: {found.toNat} \x7d"
  | unknownAlternative found count =>
    s!"OtherString(\"invalid value: integer `{found}`, expected variant index 0 <= i < {count}\")"
  | text fault =>
    s!"Utf8 \x7b inner: Utf8Error \x7b valid_up_to: {fault.validUpTo}, error_len: {fault.lengthText} \x7d \x7d"

end StakeLedger
