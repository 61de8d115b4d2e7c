import StakeLedger.Json

/-!
# Reading JSON texts

`Json.parse` is the tree of a JSON text. It follows the grammar alone: any depth of nesting,
any size of numbers; in strings, escapes have to be formed correctly and control characters
have to be escaped, but what a string says is not looked at.
-/

namespace StakeLedger.Json

/-- Whether a byte is a blank. -/
def isBlank (b : UInt8) : Bool :=
  b == 0x20 || b == 0x0A || b == 0x0D || b == 0x09

/-- The input from its first byte on that is not a blank. -/
def skipBlanks (input : Bytes) : Bytes :=
  input.dropWhile isBlank

/-- Whether a byte is a decimal digit. -/
def isDigit (b : UInt8) : Bool :=
  0x30 ≤ b && b ≤ 0x39

/-- What follows the given bytes at the front of the input. -/
def after? (front input : Bytes) : Option Bytes :=
  if front.isPrefixOf input then some (input.drop front.length) else none

/-! ## Strings and numbers -/

/-- The body of a string whose opening mark was read, and what follows its closing mark. -/
def stringBody : Bytes → Option (Bytes × Bytes)
  | 0x22 :: rest => some ([], rest)
  | 0x5C :: 0x75 :: a :: b :: c :: d :: rest =>
    match hexValue4? a b c d with
    | none => none
    | some _ =>
      (stringBody rest).map fun (body, rest) => (0x5C :: 0x75 :: a :: b :: c :: d :: body, rest)
  | 0x5C :: b :: rest =>
    match simpleEscape? b with
    | none => none
    | some _ => (stringBody rest).map fun (body, rest) => (0x5C :: b :: body, rest)
  | b :: rest =>
    if b < 0x20 ∨ b = 0x5C then none
    else (stringBody rest).map fun (body, rest) => (b :: body, rest)
  | [] => none

/-- At least one digit, and what follows the digits. -/
def digits? (input : Bytes) : Option (Bytes × Bytes) :=
  match input.takeWhile isDigit with
  | [] => none
  | ds => some (ds, input.dropWhile isDigit)

/-- The digits before the point: a zero stands alone. -/
def wholePart? : Bytes → Option (Bytes × Bytes)
  | 0x30 :: rest =>
    match rest with
    | [] => some ([0x30], [])
    | b :: _ => if isDigit b then none else some ([0x30], rest)
  | input => digits? input

/-- The point and the digits behind it, if there is a point. -/
def fraction? : Bytes → Option (Bytes × Bytes)
  | 0x2E :: rest => (digits? rest).map fun (ds, rest) => (0x2E :: ds, rest)
  | input => some ([], input)

/-- A sign, if there is one. -/
def sign : Bytes → Bytes × Bytes
  | 0x2B :: rest => ([0x2B], rest)
  | 0x2D :: rest => ([0x2D], rest)
  | input => ([], input)

/-- The exponent, if there is one. -/
def exponent? : Bytes → Option (Bytes × Bytes)
  | [] => some ([], [])
  | b :: rest =>
    if b = 0x65 ∨ b = 0x45 then
      let (s, rest) := sign rest
      (digits? rest).map fun (ds, rest) => (b :: (s ++ ds), rest)
    else some ([], b :: rest)

/-- A number without its sign, and what follows it. -/
def unsigned? (input : Bytes) : Option (Bytes × Bytes) :=
  match wholePart? input with
  | none => none
  | some (whole, rest) =>
    match fraction? rest with
    | none => none
    | some (fraction, rest) =>
      (exponent? rest).map fun (exponent, rest) => (whole ++ fraction ++ exponent, rest)

/-- A number, and what follows it. -/
def number? : Bytes → Option (Bytes × Bytes)
  | 0x2D :: rest => (unsigned? rest).map fun (ds, rest) => (0x2D :: ds, rest)
  | input => unsigned? input

/-! ## Trees -/

/-- The words that stand for a value by themselves. -/
def words : List (Bytes × Json) :=
  [(Utf8.ofString "null", .null), (literal true, .bool true), (literal false, .bool false)]

/-- The value of the word at the front, and what follows it. -/
def word? (input : Bytes) : Option (Json × Bytes) :=
  words.findSome? fun (w, value) => (after? w input).map fun rest => (value, rest)

mutual

/-- The value at the front, and what follows it. The fuel bounds the number of steps. -/
def value? : Nat → Bytes → Option (Json × Bytes)
  | 0, _ => none
  | fuel + 1, input =>
    match skipBlanks input with
    | [] => none
    | 0x22 :: rest => (stringBody rest).map fun (body, rest) => (.string body, rest)
    | 0x5B :: rest =>
      match skipBlanks rest with
      | 0x5D :: rest => some (.array [], rest)
      | rest => (items? fuel rest).map fun (items, rest) => (.array items, rest)
    | 0x7B :: rest =>
      match skipBlanks rest with
      | 0x7D :: rest => some (.object [], rest)
      | rest => (members? fuel rest).map fun (members, rest) => (.object members, rest)
    | b :: rest =>
      if b = 0x2D ∨ isDigit b then (number? (b :: rest)).map fun (ds, rest) => (.number ds, rest)
      else word? (b :: rest)

/-- The elements of an array up to its closing bracket, and what follows it. -/
def items? : Nat → Bytes → Option (List Json × Bytes)
  | 0, _ => none
  | fuel + 1, input =>
    match value? fuel input with
    | none => none
    | some (item, rest) =>
      match skipBlanks rest with
      | 0x2C :: rest => (items? fuel rest).map fun (items, rest) => (item :: items, rest)
      | 0x5D :: rest => some ([item], rest)
      | _ => none

/-- The members of an object up to its closing brace, and what follows it. -/
def members? : Nat → Bytes → Option (List (Bytes × Json) × Bytes)
  | 0, _ => none
  | fuel + 1, input =>
    match skipBlanks input with
    | 0x22 :: rest =>
      match stringBody rest with
      | none => none
      | some (name, rest) =>
        match skipBlanks rest with
        | 0x3A :: rest =>
          match value? fuel rest with
          | none => none
          | some (value, rest) =>
            match skipBlanks rest with
            | 0x2C :: rest =>
              (members? fuel rest).map fun (members, rest) => ((name, value) :: members, rest)
            | 0x7D :: rest => some ([(name, value)], rest)
            | _ => none
        | _ => none
    | _ => none

end

/-- The tree of a JSON text. Each step of the reader but at most every second one takes a
byte, so twice as many steps as bytes suffice. -/
def parse (input : Bytes) : Option Json :=
  match value? (2 * input.length + 2) input with
  | none => none
  | some (value, rest) => if (skipBlanks rest).isEmpty then some value else none

end StakeLedger.Json
