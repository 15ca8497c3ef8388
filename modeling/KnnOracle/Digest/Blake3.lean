/-
The BLAKE3 hash with its default length of 32 bytes.

The input is cut into chunks of 1024 bytes and each chunk into blocks of
64. Within a chunk every block is compressed into the chaining value left
by the one before. The chunks' results are joined in a binary tree whose
left subtrees are as large as a power of two allows. Flags tell the
first and last block of a chunk, the inner nodes and the root apart, so
the last compression of the root is kept back (`Node`) until it is known
to be the root.
-/
import KnnOracle.Bytes
import KnnOracle.Chunks
import KnnOracle.Powers

namespace KnnOracle.Blake3

-- ========================================================= compression

/-- A chaining value. -/
abbrev Chain := Vector UInt32 8

/-- A block as sixteen words, and the state of a compression. -/
abbrev Words := Vector UInt32 16

/-- The initial chaining value. -/
def initial : Chain :=
  #v[0x6A09E667, 0xBB67AE85, 0x3C6EF372, 0xA54FF53A,
     0x510E527F, 0x9B05688C, 0x1F83D9AB, 0x5BE0CD19]

/-- Flag of a chunk's first block. -/
def chunkStart : UInt32 := 1

/-- Flag of a chunk's last block. -/
def chunkEnd : UInt32 := 2

/-- Flag of an inner node. -/
def parent : UInt32 := 4

/-- Flag of the last compression of all. -/
def root : UInt32 := 8

/-- Rotation to the right, by less than the width. -/
def rotate (x : UInt32) (count : UInt32) : UInt32 :=
  (x >>> count) ||| (x <<< (32 - count))

/-- Mixes two message words into four words of the state. -/
def mix (s : Words) (a b c d : Fin 16) (x y : UInt32) : Words :=
  let a1 := s[a] + s[b] + x
  let d1 := rotate (s[d] ^^^ a1) 16
  let c1 := s[c] + d1
  let b1 := rotate (s[b] ^^^ c1) 12
  let a2 := a1 + b1 + y
  let d2 := rotate (d1 ^^^ a2) 8
  let c2 := c1 + d2
  let b2 := rotate (b1 ^^^ c2) 7
  (((s.set a a2).set b b2).set c c2).set d d2

/-- Mixes the columns of the state, then its diagonals. -/
def round (s m : Words) : Words :=
  let s := mix s 0 4 8 12 m[0] m[1]
  let s := mix s 1 5 9 13 m[2] m[3]
  let s := mix s 2 6 10 14 m[4] m[5]
  let s := mix s 3 7 11 15 m[6] m[7]
  let s := mix s 0 5 10 15 m[8] m[9]
  let s := mix s 1 6 11 12 m[10] m[11]
  let s := mix s 2 7 8 13 m[12] m[13]
  mix s 3 4 9 14 m[14] m[15]

/-- The order in which the next round takes the message words. -/
def permute (m : Words) : Words :=
  #v[m[2], m[6], m[3], m[10], m[7], m[0], m[4], m[13],
     m[1], m[11], m[12], m[5], m[9], m[14], m[15], m[8]]

/-- A number of rounds, permuting the message between them. -/
def rounds : Nat → Words → Words → Words
  | 0, s, _ => s
  | n + 1, s, m => rounds n (round s m) (permute m)

/-- What one compression works on. -/
structure Node where
  chain : Chain
  block : Words
  counter : UInt64
  length : UInt32
  flags : UInt32

/-- The sixteen words that seven rounds leave. -/
def Node.compress (n : Node) : Words :=
  let v := n.chain
  let start : Words :=
    #v[v[0], v[1], v[2], v[3], v[4], v[5], v[6], v[7],
       0x6A09E667, 0xBB67AE85, 0x3C6EF372, 0xA54FF53A,
       n.counter.toUInt32, (n.counter >>> 32).toUInt32, n.length, n.flags]
  rounds 7 start n.block

/-- The chaining value of a node: the two halves of the state together. -/
def Node.value (n : Node) : Chain :=
  let s := n.compress
  #v[s[0] ^^^ s[8], s[1] ^^^ s[9], s[2] ^^^ s[10], s[3] ^^^ s[11],
     s[4] ^^^ s[12], s[5] ^^^ s[13], s[6] ^^^ s[14], s[7] ^^^ s[15]]

-- ============================================================== chunks

/-- The `i`-th little-endian word of a block; what is missing is zero. -/
def wordAt (block : List UInt8) (i : Nat) : UInt32 :=
  UInt32.ofNat (ofLittleEndian ((block.drop (4 * i)).take 4))

/-- A block of at most 64 bytes as words. -/
def wordsOf (block : List UInt8) : Words := Vector.ofFn fun i => wordAt block i

/-- Compresses the blocks of a chunk in turn and keeps the last one back.
`flags` is the start flag as long as no block was compressed. -/
def chunkFrom (counter : UInt64) (chain : Chain) (flags : UInt32) :
    List (List UInt8) → Node
  | [] => ⟨chain, wordsOf [], counter, 0, flags ||| chunkEnd⟩
  | [block] =>
      ⟨chain, wordsOf block, counter, UInt32.ofNat block.length,
        flags ||| chunkEnd⟩
  | block :: next :: rest =>
      let node : Node := ⟨chain, wordsOf block, counter, 64, flags⟩
      chunkFrom counter node.value 0 (next :: rest)

/-- The node of one chunk. -/
def chunkNode (counter : Nat) (bytes : List UInt8) : Node :=
  chunkFrom (UInt64.ofNat counter) initial chunkStart (chunks 64 bytes)

/-- The nodes of all chunks; an empty input is one empty chunk. -/
def chunkNodes (bytes : List UInt8) : List Node :=
  match chunks 1024 bytes with
  | [] => [chunkNode 0 []]
  | pieces => pieces.mapIdx chunkNode

-- ============================================================== the tree

/-- The node above two others. -/
def join (left right : Node) : Node :=
  ⟨initial, left.value ++ right.value, 0, 64, parent⟩

/-- The largest power of two below `n`, for `n` at least two. -/
def leftSize (n : Nat) : Nat := 2 ^ (n - 1).log2

/-- The left part of a tree has a chunk, so that the right one is smaller than
the whole. -/
theorem leftSize_pos (n : Nat) : 0 < leftSize n := Nat.two_pow_pos _

/-- The left part of a tree of two chunks or more is smaller than the whole.
Hence hashing a tree ends. -/
theorem leftSize_lt {n : Nat} (h : 2 ≤ n) : leftSize n < n := by
  have : 2 ^ (n - 1).log2 ≤ n - 1 := Nat.log2_self_le (by omega)
  unfold leftSize
  omega

/-- Joins the nodes of a non-empty run of chunks. -/
def tree (first : Node) (rest : List Node) : Node :=
  match rest with
  | [] => first
  | second :: more =>
      let size := leftSize (more.length + 2)
      match h : (first :: second :: more).drop size with
      | [] => first
      | r :: rs =>
          join (tree first ((second :: more).take (size - 1))) (tree r rs)
termination_by rest.length
decreasing_by
  · have hsize : leftSize (more.length + 2) < more.length + 2 :=
      leftSize_lt (by omega)
    simp only [List.length_take, List.length_cons]
    omega
  · have hpos := leftSize_pos (more.length + 2)
    have hlen := congrArg List.length h
    simp only [size, List.length_drop, List.length_cons] at hlen ⊢
    omega

/-- The hash of a byte string. -/
def digest (bytes : List UInt8) : List UInt8 :=
  match chunkNodes bytes with
  | [] => []
  | first :: rest =>
      let node := tree first rest
      let words := { node with flags := node.flags ||| root }.value
      words.toList.flatMap fun w => littleEndian 4 w.toNat

end KnnOracle.Blake3
