import StakeLedger.Bytes

/-!
# BLAKE3

The unkeyed hash function BLAKE3 with 256 bits of output. The input is cut into chunks of
1024 bytes; each chunk is compressed block by block into a chaining value, and the chaining
values are joined in pairs, an odd last one rising unpaired, until one node is left. The
node that yields the output is compressed with the flag `root`.
-/

namespace StakeLedger.Blake3

/-- Eight words: a chaining value. -/
abbrev Chain := Vector UInt32 8

/-- Sixteen words: a message block, or the state of the compression function. -/
abbrev Block := Vector UInt32 16

/-- The initial chaining value. -/
def initial : Chain :=
  #v[0x6A09E667, 0xBB67AE85, 0x3C6EF372, 0xA54FF53A, 0x510E527F, 0x9B05688C, 0x1F83D9AB, 0x5BE0CD19]

/-- The flag of a chunk's first block. -/
def chunkStart : UInt32 := 1

/-- The flag of a chunk's last block. -/
def chunkEnd : UInt32 := 2

/-- The flag of a node that joins two others. -/
def parent : UInt32 := 4

/-- The flag of the node whose output is the digest. -/
def root : UInt32 := 8

/-- Rotation to the right. -/
def rotate (w : UInt32) (n : UInt32) : UInt32 :=
  (w >>> n) ||| (w <<< (32 - n))

/-- The quarter round: mixes two message words into four words of the state. -/
def quarter (s : Block) (a b c d : Fin 16) (x y : UInt32) : Block :=
  let wa := s[a] + s[b] + x
  let wd := rotate (s[d] ^^^ wa) 16
  let wc := s[c] + wd
  let wb := rotate (s[b] ^^^ wc) 12
  let wa := wa + wb + y
  let wd := rotate (wd ^^^ wa) 8
  let wc := wc + wd
  let wb := rotate (wb ^^^ wc) 7
  (((s.set a wa).set b wb).set c wc).set d wd

/-- One round: the columns, then the diagonals. -/
def round (s m : Block) : Block :=
  let s := quarter s 0 4 8 12 m[0] m[1]
  let s := quarter s 1 5 9 13 m[2] m[3]
  let s := quarter s 2 6 10 14 m[4] m[5]
  let s := quarter s 3 7 11 15 m[6] m[7]
  let s := quarter s 0 5 10 15 m[8] m[9]
  let s := quarter s 1 6 11 12 m[10] m[11]
  let s := quarter s 2 7 8 13 m[12] m[13]
  quarter s 3 4 9 14 m[14] m[15]

/-- The order in which the next round takes the message words. -/
def permuted (m : Block) : Block :=
  #v[m[2], m[6], m[3], m[10], m[7], m[0], m[4], m[13],
    m[1], m[11], m[12], m[5], m[9], m[14], m[15], m[8]]

/-- The given number of rounds, with the message permuted between them. -/
def rounds : Nat → Block → Block → Block
  | 0, s, _ => s
  | n + 1, s, m => rounds n (round s m) (permuted m)

/-- A block about to be compressed: what determines a node's chaining value and output. -/
structure Node where
  chain : Chain
  block : Block
  counter : Nat
  length : Nat
  flags : UInt32

/-- The first half of the compression function's output, which is both the chaining value
and, at the root, the digest. -/
def Node.compress (n : Node) (flags : UInt32) : Chain :=
  let h := n.chain
  let s : Block :=
    #v[h[0], h[1], h[2], h[3], h[4], h[5], h[6], h[7], initial[0], initial[1], initial[2], initial[3],
      UInt32.ofNat n.counter, UInt32.ofNat (n.counter / 0x100000000), UInt32.ofNat n.length, n.flags ||| flags]
  let s := rounds 7 s n.block
  Vector.ofFn fun i : Fin 8 => s[i.val] ^^^ s[i.val + 8]

/-- The sixteen words of a block of at most 64 bytes, padded with zeros. -/
def blockOf (bytes : Bytes) : Block :=
  let words := (Bytes.pieces 4 bytes).toArray.map fun w => UInt32.ofNat (Bytes.ofLittleEndian w)
  Vector.ofFn fun i => words[i.val]?.getD 0

/-- The last node of a chunk, given the blocks that remain and the chaining value so far. -/
def chunkNode (counter : Nat) (chain : Chain) (start : UInt32) : List Bytes → Node
  | [] => ⟨chain, blockOf [], counter, 0, start ||| chunkEnd⟩
  | [last] => ⟨chain, blockOf last, counter, last.length, start ||| chunkEnd⟩
  | block :: next :: rest =>
    let node : Node := ⟨chain, blockOf block, counter, block.length, start⟩
    chunkNode counter (node.compress 0) 0 (next :: rest)

/-- The node of one chunk. -/
def ofChunk (counter : Nat) (chunk : Bytes) : Node :=
  chunkNode counter initial chunkStart (Bytes.pieces 64 chunk)

/-- The node that joins two others. -/
def join (left right : Node) : Node :=
  ⟨initial, left.compress 0 ++ right.compress 0, 0, 64, parent⟩

/-- Joins neighbours; an odd last node stays as it is. -/
def joinPairs : List Node → List Node
  | left :: right :: rest => join left right :: joinPairs rest
  | rest => rest

/-- The node above a whole level: neighbours are joined until one node is left, which
happens within as many rounds as there are nodes. -/
def top : Nat → List Node → Node
  | _, [] => ofChunk 0 []
  | _, [node] => node
  | 0, node :: _ => node
  | fuel + 1, nodes => top fuel (joinPairs nodes)

/-- The digest of a byte string: 32 bytes. -/
def hash (bytes : Bytes) : Bytes :=
  let chunks := Bytes.pieces 1024 bytes
  let nodes := (chunks.zipIdx).map fun (chunk, i) => ofChunk i chunk
  ((top nodes.length nodes).compress root).toList.flatMap fun w => Bytes.littleEndian 4 w.toNat

theorem length_flatMap_word (words : List UInt32) :
    (words.flatMap fun w => Bytes.littleEndian 4 w.toNat).length = 4 * words.length := by
  induction words with
  | nil => rfl
  | cons w rest ih => simp [List.flatMap_cons, ih]; omega

@[simp]
theorem length_hash (bytes : Bytes) : (hash bytes).length = 32 := by
  simp only [hash, length_flatMap_word]
  simp

end StakeLedger.Blake3
