import StakeLedger.Bytes

/-!
# UTF-8

Text as bytes. `encode` writes characters; `decode` reads them back and accepts nothing
else: no overlong form, no surrogate, nothing above the last code point. A refusal says
where the readable part ends and how many bytes the unreadable sequence has.
-/

namespace StakeLedger.Utf8

/-- The bytes of a text. -/
def encode (text : List Char) : Bytes :=
  text.flatMap String.utf8EncodeChar

/-- The bytes of a string. -/
def ofString (s : String) : Bytes :=
  encode s.toList

/-- Why bytes are not UTF-8. -/
structure Fault where
  /-- How many bytes in front are readable. -/
  validUpTo : Nat
  /-- The length of the sequence that cannot be continued, or nothing if the bytes end
  within a character. -/
  length? : Option Nat
  deriving DecidableEq

/-- Whether a byte continues a character. -/
def isTail (b : UInt8) : Bool :=
  0x80 ≤ b && b ≤ 0xBF

/-- Whether a second byte may follow the first byte of a three-byte character: neither an
overlong form nor a surrogate. -/
def second3 (b c : UInt8) : Bool :=
  if b = 0xE0 then 0xA0 ≤ c && c ≤ 0xBF
  else if b = 0xED then 0x80 ≤ c && c ≤ 0x9F
  else isTail c

/-- Whether a second byte may follow the first byte of a four-byte character: neither an
overlong form nor a number above the last code point. -/
def second4 (b c : UInt8) : Bool :=
  if b = 0xF0 then 0x90 ≤ c && c ≤ 0xBF
  else if b = 0xF4 then 0x80 ≤ c && c ≤ 0x8F
  else isTail c

/-- The character with the given leading bits and continuation bytes. -/
def assemble (lead : Nat) (tails : Bytes) : Char :=
  Char.ofNat (tails.foldl (fun n b => n * 64 + (b.toNat - 0x80)) lead)

/-- The text of bytes whose first stands at `position`. -/
def decodeFrom (position : Nat) : Bytes → Except Fault (List Char)
  | [] => .ok []
  | b :: rest =>
    if b < 0x80 then
      (decodeFrom (position + 1) rest).map (Char.ofNat b.toNat :: ·)
    else if 0xC2 ≤ b ∧ b ≤ 0xDF then
      match rest with
      | [] => .error ⟨position, none⟩
      | c :: rest =>
        if isTail c then
          (decodeFrom (position + 2) rest).map (assemble (b.toNat - 0xC0) [c] :: ·)
        else .error ⟨position, some 1⟩
    else if 0xE0 ≤ b ∧ b ≤ 0xEF then
      match rest with
      | [] => .error ⟨position, none⟩
      | [c] => if second3 b c then .error ⟨position, none⟩ else .error ⟨position, some 1⟩
      | c :: d :: rest =>
        if !second3 b c then .error ⟨position, some 1⟩
        else if !isTail d then .error ⟨position, some 2⟩
        else (decodeFrom (position + 3) rest).map (assemble (b.toNat - 0xE0) [c, d] :: ·)
    else if 0xF0 ≤ b ∧ b ≤ 0xF4 then
      match rest with
      | [] => .error ⟨position, none⟩
      | [c] => if second4 b c then .error ⟨position, none⟩ else .error ⟨position, some 1⟩
      | [c, d] =>
        if !second4 b c then .error ⟨position, some 1⟩
        else if isTail d then .error ⟨position, none⟩
        else .error ⟨position, some 2⟩
      | c :: d :: e :: rest =>
        if !second4 b c then .error ⟨position, some 1⟩
        else if !isTail d then .error ⟨position, some 2⟩
        else if !isTail e then .error ⟨position, some 3⟩
        else (decodeFrom (position + 4) rest).map (assemble (b.toNat - 0xF0) [c, d, e] :: ·)
    else .error ⟨position, some 1⟩

/-- The text that bytes denote. -/
def decode (bytes : Bytes) : Except Fault (List Char) :=
  decodeFrom 0 bytes

/-- The string that bytes denote. -/
def toString? (bytes : Bytes) : Option String :=
  match decode bytes with
  | .ok text => some (String.ofList text)
  | .error _ => none

end StakeLedger.Utf8
