/-!
# BLAKE3

The hash behind stable ids. A message is cut into chunks of 1024 bytes, which are the leaves of a
binary tree whose left subtrees are full; every node is a compression of sixteen words, and the
root can be compressed again and again with a growing counter, so that it yields as many bytes as
are asked for.

## Main definitions

* `compress`: the compression function, seven rounds of mixing.
* `Node`: a node of the tree that is not compressed yet, so that it can still become the root.
* `ofBytes`: the root of a message.
* `Xof`, `Xof.byte`: the stream of bytes that a root yields.
-/

namespace ClassVeil

namespace Blake3

/-- Sixteen words: a block of a message, or the state of a compression. -/
abbrev Block := Vector UInt32 16

/-- Eight words: the value that chains compressions. -/
abbrev Chain := Vector UInt32 8

/-- The first value of every chain. -/
def initial : Chain :=
  #v[0x6A09E667, 0xBB67AE85, 0x3C6EF372, 0xA54FF53A, 0x510E527F, 0x9B05688C, 0x1F83D9AB,
    0x5BE0CD19]

/-- The order in which a round takes the words that the round before it took. -/
def schedule : Vector (Fin 16) 16 := #v[2, 6, 3, 10, 7, 0, 4, 13, 1, 11, 12, 5, 9, 14, 15, 8]

/-- The word turned right by `n` bits. -/
def rotate (x : UInt32) (n : UInt32) : UInt32 := (x >>> n) ||| (x <<< (32 - n))

/-- One mixing of four words of the state with two words of the message. -/
def mix (v : Block) (a b c d : Fin 16) (x y : UInt32) : Block :=
  let va := v[a] + v[b] + x
  let vd := rotate (v[d] ^^^ va) 16
  let vc := v[c] + vd
  let vb := rotate (v[b] ^^^ vc) 12
  let va := va + vb + y
  let vd := rotate (vd ^^^ va) 8
  let vc := vc + vd
  let vb := rotate (vb ^^^ vc) 7
  (((v.set a va).set b vb).set c vc).set d vd

/-- A round mixes the four columns of the state and then its four diagonals. -/
def round (v m : Block) : Block :=
  let v := mix v 0 4 8 12 m[0] m[1]
  let v := mix v 1 5 9 13 m[2] m[3]
  let v := mix v 2 6 10 14 m[4] m[5]
  let v := mix v 3 7 11 15 m[6] m[7]
  let v := mix v 0 5 10 15 m[8] m[9]
  let v := mix v 1 6 11 12 m[10] m[11]
  let v := mix v 2 7 8 13 m[12] m[13]
  mix v 3 4 9 14 m[14] m[15]

/-- `n` rounds, the words of the message reordered after each. -/
def rounds : Nat → Block → Block → Block
  | 0, v, _ => v
  | n + 1, v, m => rounds n (round v m) (schedule.map (m[·]))

/-- The sixteen words that a chain value, a block, a counter, a length and flags compress to. -/
def compress (chain : Chain) (block : Block) (counter : UInt64) (length flags : UInt32) : Block :=
  let start : Block :=
    #v[chain[0], chain[1], chain[2], chain[3], chain[4], chain[5], chain[6], chain[7],
      initial[0], initial[1], initial[2], initial[3], counter.toUInt32,
      (counter >>> 32).toUInt32, length, flags]
  let v := rounds 7 start block
  Vector.ofFn fun i : Fin 16 =>
    if h : i.val < 8 then v[i] ^^^ v[i.val + 8] else v[i] ^^^ chain[i.val - 8]

/-- The flags that tell compressions of different purpose apart. -/
def chunkStart : UInt32 := 1
@[inherit_doc chunkStart] def chunkEnd : UInt32 := 2
@[inherit_doc chunkStart] def parent : UInt32 := 4
@[inherit_doc chunkStart] def root : UInt32 := 8

/-- A node of the tree before its compression. -/
structure Node where
  chain : Chain
  block : Block
  counter : UInt64
  length : UInt32
  flags : UInt32

/-- The chain value that a node hands to its parent. -/
def Node.value (n : Node) : Chain :=
  let v := compress n.chain n.block n.counter n.length n.flags
  Vector.ofFn fun i : Fin 8 => v[i.val]

/-- The word with the given bytes, the least first; missing bytes are zero. -/
def word (bytes : List UInt8) : UInt32 :=
  bytes.foldr (fun b acc => acc * 256 + b.toUInt32) 0

/-- The block with the given bytes, at most 64 of them. -/
def blockOf (bytes : List UInt8) : Block :=
  Vector.ofFn fun i : Fin 16 => word ((bytes.drop (4 * i.val)).take 4)

/-- The last node of a chunk: all blocks but the last are compressed, the first one flagged. -/
def chunkNode (index : UInt64) : Nat → Chain → UInt32 → List UInt8 → Node
  | 0, chain, flags, bytes =>
    ⟨chain, blockOf bytes, index, bytes.length.toUInt32, flags ||| chunkEnd⟩
  | fuel + 1, chain, flags, bytes =>
    if bytes.length ≤ 64 then
      ⟨chain, blockOf bytes, index, bytes.length.toUInt32, flags ||| chunkEnd⟩
    else
      let node : Node := ⟨chain, blockOf (bytes.take 64), index, 64, flags⟩
      chunkNode index fuel node.value 0 (bytes.drop 64)

/-- The parent of two nodes. -/
def parentNode (left right : Node) : Node :=
  ⟨initial, left.value ++ right.value, 0, 64, parent⟩

/-- The chunks of a message; the empty message is one empty chunk. -/
def chunks : Nat → List UInt8 → List (List UInt8)
  | 0, bytes => [bytes]
  | fuel + 1, bytes =>
    if bytes.length ≤ 1024 then [bytes] else bytes.take 1024 :: chunks fuel (bytes.drop 1024)

/-- The greatest power of two below `n`: the number of leaves of the left subtree. -/
def leftSize (n : Nat) : Nat := Nat.pow 2 (n - 1).log2

/-- The tree over some leaves; `fuel` bounds its height. -/
def tree : Nat → List Node → Option Node
  | _, [] => none
  | _, [leaf] => some leaf
  | 0, leaf :: _ => some leaf
  | fuel + 1, leaves => do
    let k := leftSize leaves.length
    let left ← tree fuel (leaves.take k)
    let right ← tree fuel (leaves.drop k)
    some (parentNode left right)

/-- The node of one chunk. -/
def leaf (index : Nat) (bytes : List UInt8) : Node :=
  chunkNode index.toUInt64 16 initial chunkStart bytes

/-- The root of a message. -/
def ofBytes (bytes : List UInt8) : Node :=
  let parts := chunks bytes.length bytes
  let leaves := parts.zipIdx.map fun (part, i) => leaf i part
  (tree leaves.length leaves).getD (leaf 0 bytes)

/-- The stream of a root, with its first block at hand. -/
structure Xof where
  top : Node
  first : Block

/-- The block of the stream with a given number. -/
def Node.output (n : Node) (counter : Nat) : Block :=
  compress n.chain n.block counter.toUInt64 n.length (n.flags ||| root)

/-- The stream of a message. -/
def xof (bytes : List UInt8) : Xof :=
  let top := ofBytes bytes
  ⟨top, top.output 0⟩

/-- The byte at a position of a block. -/
def byteOf (block : Block) (i : Nat) : UInt8 :=
  (block[i / 4 % 16] >>> (8 * (i % 4)).toUInt32).toUInt8

/-- The byte of the stream at a position. -/
def Xof.byte (x : Xof) (i : Nat) : UInt8 :=
  if i < 64 then byteOf x.first i else byteOf (x.top.output (i / 64)) (i % 64)

end Blake3

end ClassVeil
