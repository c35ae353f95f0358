import Ucan.Hash.Blake2

/-!
BLAKE3 without a key: chunks of 1024 bytes as the leaves of a binary tree whose left sides are full.
-/

set_option autoImplicit false

namespace Ucan

namespace Blake3

open Blake2s (initial round wordAt blockWords)

def chunkStart : UInt32 := 1
def chunkEnd : UInt32 := 2
def parent : UInt32 := 4
def root : UInt32 := 8

/-- The place each word of a block is taken from for the next round. -/
def permutation : List Nat := [2, 6, 3, 10, 7, 0, 4, 13, 1, 11, 12, 5, 9, 14, 15, 8]

def permuteTimes : Nat → List Nat → List Nat
  | 0, order => order
  | n + 1, order => permuteTimes n (permutation.map fun i => order.getD i 0)

/-- What goes into one compression. -/
structure Node where
  chaining : List UInt32
  words : Array UInt32
  counter : Nat
  length : Nat
  flags : UInt32

def Node.output (n : Node) : List UInt32 :=
  let counts := [n.counter.toUInt32, (n.counter >>> 32).toUInt32, n.length.toUInt32, n.flags]
  let v := (n.chaining ++ initial.take 4 ++ counts).toArray
  let v := (List.range 7).foldl (fun v i => round n.words v (permuteTimes i (List.range 16))) v
  (List.range 8).map fun i => wordAt v i ^^^ wordAt v (i + 8)

/-- The last compression of a chunk, after those of its other blocks. -/
def chunkNode (index : Nat) (chaining : List UInt32) (start : UInt32) : List Bytes → Node
  | [] => ⟨chaining, blockWords [], index, 0, start ||| chunkEnd⟩
  | [last] => ⟨chaining, blockWords last, index, last.length, start ||| chunkEnd⟩
  | block :: rest =>
    let node : Node := ⟨chaining, blockWords block, index, block.length, start⟩
    chunkNode index node.output 0 rest

def parentNode (left right : Node) : Node :=
  ⟨initial, (left.output ++ right.output).toArray, 0, 64, parent⟩

/-- The chunks from `index` on as a tree: the left side has the greatest power of two of them that
leaves some for the right. -/
def tree (index : Nat) (chunks : List Bytes) : Node :=
  if h : chunks.length ≤ 1 then
    chunkNode index initial chunkStart (Bytes.chunks 64 (chunks.headD []))
  else
    let left := Nat.pow 2 (chunks.length - 1).log2
    have : left ≤ chunks.length - 1 := Nat.log2_self_le (by omega)
    have : 0 < left := Nat.two_pow_pos _
    parentNode (tree index (chunks.take left)) (tree (index + left) (chunks.drop left))
termination_by chunks.length
decreasing_by
  · simp only [List.length_take]; omega
  · simp only [List.length_drop]; omega

end Blake3

def blake3 (message : Bytes) : Bytes :=
  let top := Blake3.tree 0 (Bytes.chunks 1024 message)
  let words := { top with counter := 0, flags := top.flags ||| Blake3.root }.output.toArray
  (List.range 32).map fun i =>
    (Blake2s.wordAt words (i / 4) >>> (8 * (i % 4)).toUInt32).toUInt8

@[simp] theorem length_blake3 (message : Bytes) : (blake3 message).length = 32 := by
  simp [blake3]

end Ucan
