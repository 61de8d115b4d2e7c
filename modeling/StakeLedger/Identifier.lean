import StakeLedger.Base58

/-!
# Identifiers

An identifier is a name of 32 bytes: of an account, or of the entity whose digest it is.
Identifiers are ordered byte by byte, most significant byte first. Their text is the letter
`z` followed by the bytes in base58.
-/

namespace StakeLedger

/-- A name of 32 bytes. -/
structure Identifier where
  /-- The bytes, most significant first. -/
  bytes : Bytes
  /-- There are 32 of them. -/
  length_eq : bytes.length = 32
  deriving DecidableEq

namespace Identifier

/-- The number of bytes of an identifier. -/
def size : Nat := 32

/-- The identifier whose bytes are all zero: the root of a tree without leaves. -/
def zero : Identifier := ⟨List.replicate 32 0, by simp⟩

instance : Inhabited Identifier := ⟨zero⟩

/-- The identifier with the given bytes, if there are 32. -/
def ofBytes? (bytes : Bytes) : Option Identifier :=
  if h : bytes.length = 32 then some ⟨bytes, h⟩ else none

@[simp]
theorem ofBytes?_bytes (x : Identifier) : ofBytes? x.bytes = some x := by
  simp [ofBytes?, x.length_eq]

theorem bytes_of_ofBytes? {bytes : Bytes} {x : Identifier} (h : ofBytes? bytes = some x) :
    x.bytes = bytes := by
  rw [ofBytes?] at h
  split at h
  · cases h; rfl
  · cases h

/-! ## Order -/

instance : Ord Identifier := ⟨fun x y => compare x.bytes y.bytes⟩

instance : Std.TransOrd Identifier where
  eq_swap {x y} := (Std.OrientedCmp.eq_swap : compare x.bytes y.bytes = _)
  isLE_trans {x _ z} h h' := (Std.TransCmp.isLE_trans h h' : (compare x.bytes z.bytes).isLE)

theorem ext_bytes {x y : Identifier} (h : x.bytes = y.bytes) : x = y := by
  cases x; cases y; cases h; rfl

instance : Std.LawfulEqOrd Identifier where
  compare_self {x} := (Std.ReflCmp.compare_self : compare x.bytes x.bytes = .eq)
  eq_of_compare {x y} (h : compare x.bytes y.bytes = .eq) := ext_bytes (Std.LawfulEqCmp.eq_of_compare h)

/-- Whether the first identifier is at most the second. -/
def le (x y : Identifier) : Bool :=
  (compare x y).isLE

theorem le_of_compare_lt {x y : Identifier} (h : compare x y = .lt) : x.le y := by
  rw [le, h]
  rfl

theorem le_refl (x : Identifier) : x.le x := by
  have heq : compare x x = .eq := Std.ReflCmp.compare_self
  rw [le, heq]
  rfl

theorem le_antisymm {x y : Identifier} (h : x.le y) (h' : y.le x) : x = y :=
  Std.LawfulEqOrd.eq_of_compare (Std.OrientedCmp.isLE_antisymm h h')

/-! ## Text -/

/-- The character that announces base58. -/
def announcer : Char := 'z'

/-- The text of an identifier. -/
def text (x : Identifier) : String :=
  String.ofList (announcer :: Base58.encode x.bytes)

instance : ToString Identifier := ⟨text⟩

/-- The start of an identifier's text, for a reader who only has to tell it from others. -/
def brief (x : Identifier) : String :=
  "Identifier(" ++ String.ofList (x.text.toList.take 10) ++ "..)"

end Identifier

end StakeLedger
