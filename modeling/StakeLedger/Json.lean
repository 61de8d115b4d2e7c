import StakeLedger.Text.Utf8

/-!
# JSON texts as trees

A `Json` is the syntax tree of a JSON text. Numbers and strings are kept as they are
written: a number as its characters, a string as the bytes between its quotation marks,
escapes included. So a tree exists also for texts whose numbers nobody can hold and whose
strings nobody can read, as long as nobody asks for them.

* `ofString` and `ofNat` make the leaves of a tree; `text?` and `nat?` read them.
* `compact` writes a tree without blanks, `pretty` with one member or element to a line.
-/

namespace StakeLedger

/-- The syntax tree of a JSON text. -/
inductive Json
  /-- The literal `null`. -/
  | null
  /-- The literals `true` and `false`. -/
  | bool (b : Bool)
  /-- A number, as it is written. -/
  | number (digits : Bytes)
  /-- A string, as it is written between its quotation marks. -/
  | string (body : Bytes)
  /-- An array. -/
  | array (items : List Json)
  /-- An object: names, as they are written, and values. -/
  | object (members : List (Bytes × Json))

namespace Json

/-! ## Strings -/

/-- The character of a hexadecimal digit. -/
def hexDigit (n : Nat) : UInt8 :=
  UInt8.ofNat (if n < 10 then 0x30 + n else 0x57 + n)

/-- The value of a hexadecimal digit in either case. -/
def hexValue? (b : UInt8) : Option Nat :=
  if 0x30 ≤ b ∧ b ≤ 0x39 then some (b.toNat - 0x30)
  else if 0x41 ≤ b ∧ b ≤ 0x46 then some (b.toNat - 0x37)
  else if 0x61 ≤ b ∧ b ≤ 0x66 then some (b.toNat - 0x57)
  else none

/-- The value of four hexadecimal digits. -/
def hexValue4? (a b c d : UInt8) : Option Nat :=
  match hexValue? a, hexValue? b, hexValue? c, hexValue? d with
  | some a, some b, some c, some d => some (((a * 16 + b) * 16 + c) * 16 + d)
  | _, _, _, _ => none

/-- A character within a string: quotation marks, backslashes and control characters are
escaped, everything else stands for itself. -/
def escapeChar (c : Char) : Bytes :=
  if c = '"' then [0x5C, 0x22]
  else if c = '\\' then [0x5C, 0x5C]
  else if c = '\x08' then [0x5C, 0x62]
  else if c = '\x0c' then [0x5C, 0x66]
  else if c = '\n' then [0x5C, 0x6E]
  else if c = '\r' then [0x5C, 0x72]
  else if c = '\t' then [0x5C, 0x74]
  else if c.toNat < 0x20 then
    [0x5C, 0x75, 0x30, 0x30, hexDigit (c.toNat / 16), hexDigit (c.toNat % 16)]
  else String.utf8EncodeChar c

/-- The body of a string with the given text. -/
def escape (s : String) : Bytes :=
  s.toList.flatMap escapeChar

/-- The character that a single letter after a backslash stands for. -/
def simpleEscape? (b : UInt8) : Option UInt8 :=
  if b = 0x22 ∨ b = 0x5C ∨ b = 0x2F then some b
  else if b = 0x62 then some 0x08
  else if b = 0x66 then some 0x0C
  else if b = 0x6E then some 0x0A
  else if b = 0x72 then some 0x0D
  else if b = 0x74 then some 0x09
  else none

/-- The bytes of a string's text, given its body: escapes are resolved, and a surrogate
has to be the first or second half of a pair. -/
def unescape : Bytes → Option Bytes
  | [] => some []
  | 0x5C :: 0x75 :: a :: b :: c :: d :: rest =>
    match hexValue4? a b c d with
    | none => none
    | some n =>
      if 0xD800 ≤ n ∧ n ≤ 0xDBFF then
        match rest with
        | 0x5C :: 0x75 :: a :: b :: c :: d :: rest =>
          match hexValue4? a b c d with
          | none => none
          | some m =>
            if 0xDC00 ≤ m ∧ m ≤ 0xDFFF then
              let code := 0x10000 + (n - 0xD800) * 0x400 + (m - 0xDC00)
              (unescape rest).map (String.utf8EncodeChar (Char.ofNat code) ++ ·)
            else none
        | _ => none
      else if 0xDC00 ≤ n ∧ n ≤ 0xDFFF then none
      else (unescape rest).map (String.utf8EncodeChar (Char.ofNat n) ++ ·)
  | 0x5C :: b :: rest =>
    match simpleEscape? b with
    | none => none
    | some c => (unescape rest).map (c :: ·)
  | [0x5C] => none
  | b :: rest => (unescape rest).map (b :: ·)

/-- The text of a string's body, if its escapes are sound and it is UTF-8. -/
def bodyText? (body : Bytes) : Option String :=
  match unescape body with
  | none => none
  | some bytes => Utf8.toString? bytes

/-- The string with the given text. -/
def ofString (s : String) : Json :=
  .string (escape s)

/-- The text of a string. -/
def text? : Json → Option String
  | .string body => bodyText? body
  | _ => none

/-! ## Numbers -/

/-- The decimal digits of a number, as characters. -/
def decimal (n : Nat) : Bytes :=
  (Nat.toDigits 10 n).map fun c => UInt8.ofNat c.toNat

/-- The number that decimal digits denote, if there are only digits. -/
def decimalValue? (digits : Bytes) : Option Nat :=
  if digits.all fun b => 0x30 ≤ b && b ≤ 0x39 then
    some (digits.foldl (fun n b => n * 10 + (b.toNat - 0x30)) 0)
  else none

/-- A natural number. -/
def ofNat (n : Nat) : Json :=
  .number (decimal n)

/-- The value of a number that is written as a natural number. -/
def nat? : Json → Option Nat
  | .number digits => decimalValue? digits
  | _ => none

/-! ## Objects -/

/-- An object with members of the given names. -/
def ofMembers (members : List (String × Json)) : Json :=
  .object (members.map fun (name, value) => (escape name, value))

/-! ## Writing -/

/-- The body of a string within its quotation marks. -/
def quoted (body : Bytes) : Bytes :=
  0x22 :: (body ++ [0x22])

/-- The characters of a literal. -/
def literal (b : Bool) : Bytes :=
  Utf8.ofString (if b then "true" else "false")

mutual

/-- The text of a tree without blanks. -/
def compact : Json → Bytes
  | .null => Utf8.ofString "null"
  | .bool b => literal b
  | .number digits => digits
  | .string body => quoted body
  | .array items => 0x5B :: (compactItems items ++ [0x5D])
  | .object members => 0x7B :: (compactMembers members ++ [0x7D])

/-- The elements of an array, separated by commas. -/
def compactItems : List Json → Bytes
  | [] => []
  | [item] => compact item
  | item :: rest => compact item ++ 0x2C :: compactItems rest

/-- The members of an object, separated by commas. -/
def compactMembers : List (Bytes × Json) → Bytes
  | [] => []
  | [(name, value)] => quoted name ++ 0x3A :: compact value
  | (name, value) :: rest => quoted name ++ 0x3A :: (compact value ++ 0x2C :: compactMembers rest)

end

/-- The start of a line at the given depth, two blanks to a level. -/
def newline (depth : Nat) : Bytes :=
  0x0A :: List.replicate (2 * depth) 0x20

mutual

/-- The text of a tree at the given depth, with a line for each element and member. -/
def prettyAt (depth : Nat) : Json → Bytes
  | .null => Utf8.ofString "null"
  | .bool b => literal b
  | .number digits => digits
  | .string body => quoted body
  | .array [] => [0x5B, 0x5D]
  | .array (item :: rest) =>
    0x5B :: (prettyItems (depth + 1) (item :: rest) ++ newline depth ++ [0x5D])
  | .object [] => [0x7B, 0x7D]
  | .object (member :: rest) =>
    0x7B :: (prettyMembers (depth + 1) (member :: rest) ++ newline depth ++ [0x7D])

/-- The elements of an array, each on a line. -/
def prettyItems (depth : Nat) : List Json → Bytes
  | [] => []
  | [item] => newline depth ++ prettyAt depth item
  | item :: rest => newline depth ++ prettyAt depth item ++ 0x2C :: prettyItems depth rest

/-- The members of an object, each on a line. -/
def prettyMembers (depth : Nat) : List (Bytes × Json) → Bytes
  | [] => []
  | [(name, value)] => newline depth ++ quoted name ++ 0x3A :: 0x20 :: prettyAt depth value
  | (name, value) :: rest =>
    newline depth ++ quoted name ++ 0x3A :: 0x20 :: (prettyAt depth value ++ 0x2C :: prettyMembers depth rest)

end

/-- The text of a tree with a line for each element and member. -/
def pretty (j : Json) : Bytes :=
  prettyAt 0 j

end Json

end StakeLedger
