import StakeLedger.Bytes
import StakeLedger.Ed25519.Field

/-!
# The Edwards curve of Ed25519

The points of `-x² + y² = 1 + d·x²·y²`, in coordinates `(X : Y : Z : T)` with `x = X / Z`,
`y = Y / Z` and `x·y = T / Z`. The addition law has no exceptions, so it also doubles.

* `Point.compress` writes a point as its `y` and the sign of its `x` in 32 bytes.
* `Point.decompress?` reads a point. It takes every `y` below 2^255, reduced or not, and
  either sign for an `x` that is zero; it refuses a `y` that no point has.
-/

namespace StakeLedger.Ed25519

open StakeLedger.Ed25519.Field

/-- A point of the curve in extended coordinates. -/
structure Point where
  x : Nat
  y : Nat
  z : Nat
  t : Nat
  deriving DecidableEq

/-- The coefficient of the curve. -/
def coefficient : Nat := 0x52036cee2b6ffe738cc740797779e89800700a4d4141d8ab75eb4dca135978a3

/-- The order of the subgroup that the base point generates. -/
def order : Nat := 0x1000000000000000000000000000000014def9dea2f79cd65812631a5cf5d3ed

/-- 2^255, the weight of the bit that holds the sign. -/
def signWeight : Nat := 0x8000000000000000000000000000000000000000000000000000000000000000

namespace Point

/-- The point with the given affine coordinates. -/
def affine (x y : Nat) : Point := ⟨x, y, 1, mul x y⟩

/-- The neutral element. -/
def identity : Point := affine 0 1

/-- The base point. -/
def base : Point :=
  affine 0x216936d3cd6e53fec0a4e231fdd6dc5c692cc7609525a7b2c9562d608f25d51a
    0x6666666666666666666666666666666666666666666666666666666666666658

/-- The sum of two points. -/
def add (p q : Point) : Point :=
  let a := mul (sub p.y p.x) (sub q.y q.x)
  let b := mul (Field.add p.y p.x) (Field.add q.y q.x)
  let c := mul (mul p.t q.t) (Field.add coefficient coefficient)
  let d := mul p.z (Field.add q.z q.z)
  let e := sub b a
  let f := sub d c
  let g := Field.add d c
  let h := Field.add b a
  ⟨mul e f, mul g h, mul f g, mul e h⟩

/-- The negative of a point. -/
def neg (p : Point) : Point := ⟨Field.neg p.x, p.y, p.z, Field.neg p.t⟩

/-- A multiple of a point, for a factor of at most 256 bits. -/
def multiple (n : Nat) (p : Point) : Point :=
  (bits n).foldr (fun bit acc => if bit then add (add acc acc) p else add acc acc) identity

/-- The 32 bytes of a point. -/
def compress (p : Point) : Bytes :=
  let reciprocal := inverse p.z
  let x := mul p.x reciprocal
  let y := mul p.y reciprocal
  Bytes.littleEndian 32 (if isNegative x then y + signWeight else y)

/-- The point of 32 bytes. -/
def decompress? (bytes : Bytes) : Option Point :=
  let n := Bytes.ofLittleEndian bytes
  let y := n % signWeight % prime
  let u := sub (square y) 1
  let v := Field.add (mul coefficient (square y)) 1
  (sqrtRatio? u v).map fun x => affine (if signWeight ≤ n then Field.neg x else x) y

end Point

end StakeLedger.Ed25519
