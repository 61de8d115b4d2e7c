/-!
# Byte strings

A byte string is a list of bytes. This module holds the numerals of fixed width that the
formats of the ledger write into them, and the two ways in which they are cut:

* `littleEndian` and `bigEndian` write a number in a given number of bytes, and
  `ofLittleEndian` and `ofBigEndian` read it back; every byte string is the numeral of the
  number it reads as (`littleEndian_ofLittleEndian`).
* `split?` separates the first bytes from the rest, if there are enough, and `pieces`
  cuts a list into parts of one size, of which only the last may be shorter.
-/

namespace StakeLedger

/-- A byte string. -/
abbrev Bytes := List UInt8

namespace Bytes

/-! ## Numerals of fixed width -/

/-- The lowest `width` base-256 digits of a number, least significant first. -/
def littleEndian : Nat → Nat → Bytes
  | 0, _ => []
  | width + 1, n => UInt8.ofNat n :: littleEndian width (n / 256)

/-- The number whose base-256 digits are given, least significant first. -/
def ofLittleEndian : Bytes → Nat
  | [] => 0
  | b :: rest => b.toNat + 256 * ofLittleEndian rest

/-- The lowest `width` base-256 digits of a number, most significant first. -/
def bigEndian (width n : Nat) : Bytes :=
  (littleEndian width n).reverse

/-- The number whose base-256 digits are given, most significant first. -/
def ofBigEndian (bytes : Bytes) : Nat :=
  ofLittleEndian bytes.reverse

@[simp]
theorem length_littleEndian (width n : Nat) : (littleEndian width n).length = width := by
  induction width generalizing n with
  | zero => rfl
  | succ width ih => simp [littleEndian, ih]

@[simp]
theorem length_bigEndian (width n : Nat) : (bigEndian width n).length = width := by
  simp [bigEndian]

theorem littleEndian_ofLittleEndian (bytes : Bytes) :
    littleEndian bytes.length (ofLittleEndian bytes) = bytes := by
  induction bytes with
  | nil => rfl
  | cons b rest ih =>
    have := b.toNat_lt
    simp only [List.length_cons, ofLittleEndian, littleEndian]
    rw [show (b.toNat + 256 * ofLittleEndian rest) / 256 = ofLittleEndian rest by omega, ih]
    congr 1
    apply UInt8.toNat_inj.mp
    simp only [UInt8.toNat_ofNat']
    omega

/-! ## Cutting -/

/-- The first `n` bytes and the rest, if there are `n` bytes. -/
def split? (n : Nat) (bytes : Bytes) : Option (Bytes × Bytes) :=
  if n ≤ bytes.length then some (bytes.take n, bytes.drop n) else none

theorem split?_eq_some_iff {n : Nat} {bytes first rest : Bytes} :
    split? n bytes = some (first, rest) ↔ bytes = first ++ rest ∧ first.length = n := by
  rw [split?]
  split
  · next h =>
    simp only [Option.some.injEq, Prod.mk.injEq]
    constructor
    · rintro ⟨rfl, rfl⟩
      simp [h]
    · rintro ⟨rfl, rfl⟩
      simp
  · next h =>
    simp only [reduceCtorEq, false_iff]
    rintro ⟨rfl, rfl⟩
    simp at h

/-- Parts of `size` elements each, the last one with what remains; no part is empty. A
size of zero counts as one. -/
def pieces {α : Type} (size : Nat) (items : List α) : List (List α) :=
  if items.isEmpty then []
  else items.take (size - 1 + 1) :: pieces size (items.drop (size - 1 + 1))
termination_by items.length
decreasing_by
  cases items with
  | nil => simp at *
  | cons _ _ => simp only [List.length_drop, List.length_cons]; omega

end Bytes

end StakeLedger
