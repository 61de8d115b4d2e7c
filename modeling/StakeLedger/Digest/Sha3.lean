import StakeLedger.Bytes

/-!
# SHA3-256

The sponge over the permutation Keccak-f[1600] with a rate of 136 bytes, the domain
suffix of SHA-3 and 256 bits of output.
-/

namespace StakeLedger.Sha3

/-- The 25 lanes of the permutation's state, lane `(x, y)` at position `x + 5 * y`. -/
abbrev Lanes := Vector UInt64 25

/-- Bytes absorbed by one application of the permutation. -/
def rate : Nat := 136

/-- Rotation to the left. -/
def rotate (w : UInt64) (n : UInt64) : UInt64 :=
  if n = 0 then w else (w <<< n) ||| (w >>> (64 - n))

/-- The lane at `(x, y)`, coordinates taken modulo five. -/
def lane (s : Lanes) (x y : Nat) : UInt64 :=
  s.get ⟨x % 5 + 5 * (y % 5), by omega⟩

/-- How far each lane is rotated. -/
def rotations : Lanes :=
  #v[0, 1, 62, 28, 27, 36, 44, 6, 55, 20, 3, 10, 43, 25, 39, 41, 45, 15, 21, 8, 18, 2, 61, 56, 14]

/-- The constants of the 24 rounds. -/
def roundConstants : List UInt64 :=
  [0x0000000000000001, 0x0000000000008082, 0x800000000000808A, 0x8000000080008000,
   0x000000000000808B, 0x0000000080000001, 0x8000000080008081, 0x8000000000008009,
   0x000000000000008A, 0x0000000000000088, 0x0000000080008009, 0x000000008000000A,
   0x000000008000808B, 0x800000000000008B, 0x8000000000008089, 0x8000000000008003,
   0x8000000000008002, 0x8000000000000080, 0x000000000000800A, 0x800000008000000A,
   0x8000000080008081, 0x8000000000008080, 0x0000000080000001, 0x8000000080008008]

/-- A state given by the lane at each pair of coordinates. -/
def ofCoordinates (f : Nat → Nat → UInt64) : Lanes :=
  Vector.ofFn fun i => f (i.val % 5) (i.val / 5)

/-- The step that adds the parities of two neighbouring columns to each lane. -/
def theta (s : Lanes) : Lanes :=
  let parity : Vector UInt64 5 := Vector.ofFn fun x =>
    lane s x 0 ^^^ lane s x 1 ^^^ lane s x 2 ^^^ lane s x 3 ^^^ lane s x 4
  let column (x : Nat) : UInt64 := parity.get ⟨x % 5, by omega⟩
  let effect : Vector UInt64 5 := Vector.ofFn fun x => column (x + 4) ^^^ rotate (column (x + 1)) 1
  ofCoordinates fun x y => lane s x y ^^^ effect.get ⟨x % 5, by omega⟩

/-- The steps that rotate each lane and move it to its new place. -/
def rhoPi (s : Lanes) : Lanes :=
  ofCoordinates fun x y => rotate (lane s (x + 3 * y) x) (lane rotations (x + 3 * y) x)

/-- The nonlinear step, which combines each lane with the next two of its row. -/
def chi (s : Lanes) : Lanes :=
  ofCoordinates fun x y => lane s x y ^^^ (~~~(lane s (x + 1) y) &&& lane s (x + 2) y)

/-- One round of the permutation. -/
def round (s : Lanes) (constant : UInt64) : Lanes :=
  let s := chi (rhoPi (theta s))
  s.set 0 (s[0] ^^^ constant)

/-- The permutation. -/
def permute (s : Lanes) : Lanes :=
  roundConstants.foldl round s

/-- A block of at most 136 bytes added to the state, which is then permuted. -/
def absorb (s : Lanes) (block : Bytes) : Lanes :=
  let words := (Bytes.pieces 8 block).toArray.map fun w => UInt64.ofNat (Bytes.ofLittleEndian w)
  permute (Vector.ofFn fun i => s[i] ^^^ words[i.val]?.getD 0)

/-- The bytes that fill the last block: a first bit pair and a bit for the padding's start,
zeros, and a last bit. -/
def padding (length : Nat) : Bytes :=
  let free := rate - length % rate
  if free = 1 then [0x86] else 0x06 :: (List.replicate (free - 2) 0 ++ [0x80])

/-- The digest of a byte string: 32 bytes. -/
def hash (bytes : Bytes) : Bytes :=
  let blocks := Bytes.pieces rate (bytes ++ padding bytes.length)
  let s := blocks.foldl absorb (Vector.replicate 25 0)
  [s[0], s[1], s[2], s[3]].flatMap fun w => Bytes.littleEndian 8 w.toNat

@[simp]
theorem length_hash (bytes : Bytes) : (hash bytes).length = 32 := by
  simp [hash, List.flatMap_cons]

end StakeLedger.Sha3
