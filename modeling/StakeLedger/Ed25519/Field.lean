/-!
# The field of Curve25519

Arithmetic modulo the prime 2^255 - 19 on natural numbers below it. An element is negative
if it is odd.
-/

namespace StakeLedger.Ed25519

/-- The prime 2^255 - 19. -/
def prime : Nat := 0x7fffffffffffffffffffffffffffffffffffffffffffffffffffffffffffffed

namespace Field

/-- The sum of two elements. -/
def add (x y : Nat) : Nat := (x + y) % prime

/-- The difference of two elements. -/
def sub (x y : Nat) : Nat := (x + (prime - y % prime)) % prime

/-- The negative of an element. -/
def neg (x : Nat) : Nat := sub 0 x

/-- The product of two elements. -/
def mul (x y : Nat) : Nat := x * y % prime

/-- The square of an element. -/
def square (x : Nat) : Nat := mul x x

/-- The 256 lowest bits of a number, least significant first. -/
def bits (n : Nat) : List Bool := (List.range 256).map n.testBit

/-- A power of an element, for an exponent of at most 256 bits. -/
def pow (x exponent : Nat) : Nat :=
  (bits exponent).foldr (fun bit acc => if bit then mul (square acc) x else square acc) 1

/-- The reciprocal of an element that is not zero. -/
def inverse (x : Nat) : Nat := pow x (prime - 2)

/-- Whether an element counts as negative. -/
def isNegative (x : Nat) : Bool := x % 2 == 1

/-- A square root of minus one. -/
def rootOfMinusOne : Nat := 0x2b8324804fc1df0b2b4d00993dfbd7a72f431806ad2fe478c4ee1b274a0ea0b0

/-- The square root of `u / v` that is not negative, if there is one. -/
def sqrtRatio? (u v : Nat) : Option Nat :=
  let v3 := mul (square v) v
  let v7 := mul (square v3) v
  let candidate := mul (mul u v3) (pow (mul u v7) ((prime - 5) / 8))
  let check := mul v (square candidate)
  let root? :=
    if check = u then some candidate
    else if check = neg u then some (mul candidate rootOfMinusOne)
    else none
  root?.map fun root => if isNegative root then neg root else root

end Field

end StakeLedger.Ed25519
