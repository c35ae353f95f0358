import Ucan.Bytes

/-!
BLAKE2b and BLAKE2s of RFC 7693, without a key.
-/

set_option autoImplicit false

namespace Ucan

namespace Blake2

/-- The order in which each round takes the words of a block; after the tenth they start over. -/
def orders : List (List Nat) := [
  [0, 1, 2, 3, 4, 5, 6, 7, 8, 9, 10, 11, 12, 13, 14, 15],
  [14, 10, 4, 8, 9, 15, 13, 6, 1, 12, 0, 2, 11, 7, 5, 3],
  [11, 8, 12, 0, 5, 2, 15, 13, 10, 14, 3, 6, 7, 1, 9, 4],
  [7, 9, 3, 1, 13, 12, 11, 14, 2, 6, 5, 10, 4, 0, 15, 8],
  [9, 0, 5, 7, 2, 4, 10, 15, 14, 1, 11, 12, 6, 8, 3, 13],
  [2, 12, 6, 10, 0, 11, 8, 3, 4, 13, 7, 5, 15, 14, 1, 9],
  [12, 5, 1, 15, 14, 13, 4, 10, 0, 7, 6, 3, 9, 2, 8, 11],
  [13, 11, 7, 14, 12, 1, 3, 9, 5, 0, 15, 4, 8, 6, 2, 10],
  [6, 15, 14, 9, 11, 3, 0, 8, 12, 2, 13, 7, 1, 4, 10, 5],
  [10, 2, 8, 4, 7, 6, 1, 5, 15, 11, 9, 14, 3, 12, 13, 0]]

/-- The places of the four words that are mixed together: columns, then diagonals. -/
def quarters : List (Nat × Nat × Nat × Nat) :=
  [(0, 4, 8, 12), (1, 5, 9, 13), (2, 6, 10, 14), (3, 7, 11, 15),
    (0, 5, 10, 15), (1, 6, 11, 12), (2, 7, 8, 13), (3, 4, 9, 14)]

/-- A block of zeros when there is no message, so that there is always a last block. -/
def blocks (size : Nat) (message : Bytes) : List Bytes :=
  if message.isEmpty then [[]] else Bytes.chunks size message

/-- How many bytes were taken with each block, and whether it is the last. -/
def counted (size total : Nat) : (index : Nat) → List Bytes → List (Bytes × Nat × Bool)
  | _, [] => []
  | _, [last] => [(last, total, true)]
  | index, block :: rest =>
    (block, (index + 1) * size, false) :: counted size total (index + 1) rest

end Blake2

namespace Blake2b

/-- The words that also start SHA-512. -/
def initial : List UInt64 := [
  0x6a09e667f3bcc908, 0xbb67ae8584caa73b, 0x3c6ef372fe94f82b, 0xa54ff53a5f1d36f1,
  0x510e527fade682d1, 0x9b05688c2b3e6c1f, 0x1f83d9abfb41bd6b, 0x5be0cd19137e2179]

def rotr (x n : UInt64) : UInt64 := x >>> n ||| x <<< (64 - n)

def at_ (v : Array UInt64) (i : Nat) : UInt64 := v.getD i 0

def mix (v : Array UInt64) (places : Nat × Nat × Nat × Nat) (x y : UInt64) : Array UInt64 :=
  let (i, j, k, l) := places
  let a := at_ v i + at_ v j + x
  let d := rotr (at_ v l ^^^ a) 32
  let c := at_ v k + d
  let b := rotr (at_ v j ^^^ c) 24
  let a := a + b + y
  let d := rotr (d ^^^ a) 16
  let c := c + d
  let b := rotr (b ^^^ c) 63
  (((v.setIfInBounds i a).setIfInBounds j b).setIfInBounds k c).setIfInBounds l d

def round (words : Array UInt64) (v : Array UInt64) (order : List Nat) : Array UInt64 :=
  (Blake2.quarters.zip (List.range 8)).foldl (fun v q =>
    mix v q.1 (at_ words (order.getD (2 * q.2) 0)) (at_ words (order.getD (2 * q.2 + 1) 0))) v

def compress (h : List UInt64) (block : Bytes × Nat × Bool) : List UInt64 :=
  let (bytes, count, last) := block
  let filled := bytes ++ List.replicate (128 - bytes.length) 0
  let words := ((Bytes.chunks 8 filled).map fun w => (Bytes.toNatLE w).toUInt64).toArray
  let v := (h ++ initial).toArray
  let v := v.setIfInBounds 12 (at_ v 12 ^^^ count.toUInt64)
  let v := v.setIfInBounds 13 (at_ v 13 ^^^ (count >>> 64).toUInt64)
  let v := if last then v.setIfInBounds 14 (~~~(at_ v 14)) else v
  let v := (Blake2.orders ++ Blake2.orders.take 2).foldl (round words) v
  (h.zip (List.range 8)).map fun hi => hi.1 ^^^ at_ v hi.2 ^^^ at_ v (hi.2 + 8)

def start (size : Nat) : List UInt64 :=
  match initial with
  | [] => []
  | first :: rest => (first ^^^ 0x01010000 ^^^ size.toUInt64) :: rest

end Blake2b

def blake2b (size : Nat) (message : Bytes) : Bytes :=
  let blocks := Blake2.counted 128 message.length 0 (Blake2.blocks 128 message)
  let h := (blocks.foldl Blake2b.compress (Blake2b.start size)).toArray
  (List.range size).map fun i => (Blake2b.at_ h (i / 8) >>> (8 * (i % 8)).toUInt64).toUInt8

@[simp] theorem length_blake2b (size : Nat) (message : Bytes) :
    (blake2b size message).length = size := by
  simp [blake2b]

namespace Blake2s

/-- The words that also start SHA-256. -/
def initial : List UInt32 := [
  0x6a09e667, 0xbb67ae85, 0x3c6ef372, 0xa54ff53a, 0x510e527f, 0x9b05688c, 0x1f83d9ab, 0x5be0cd19]

def rotr (x n : UInt32) : UInt32 := x >>> n ||| x <<< (32 - n)

def wordAt (v : Array UInt32) (i : Nat) : UInt32 := v.getD i 0

def mix (v : Array UInt32) (places : Nat × Nat × Nat × Nat) (x y : UInt32) : Array UInt32 :=
  let (i, j, k, l) := places
  let a := wordAt v i + wordAt v j + x
  let d := rotr (wordAt v l ^^^ a) 16
  let c := wordAt v k + d
  let b := rotr (wordAt v j ^^^ c) 12
  let a := a + b + y
  let d := rotr (d ^^^ a) 8
  let c := c + d
  let b := rotr (b ^^^ c) 7
  (((v.setIfInBounds i a).setIfInBounds j b).setIfInBounds k c).setIfInBounds l d

def round (words : Array UInt32) (v : Array UInt32) (order : List Nat) : Array UInt32 :=
  (Blake2.quarters.zip (List.range 8)).foldl (fun v q =>
    mix v q.1 (wordAt words (order.getD (2 * q.2) 0)) (wordAt words (order.getD (2 * q.2 + 1) 0))) v

/-- The little endian words of a block, filled up with zeros. -/
def blockWords (bytes : Bytes) : Array UInt32 :=
  let filled := bytes ++ List.replicate (64 - bytes.length) 0
  ((Bytes.chunks 4 filled).map fun w => (Bytes.toNatLE w).toUInt32).toArray

def compress (h : List UInt32) (block : Bytes × Nat × Bool) : List UInt32 :=
  let (bytes, count, last) := block
  let v := (h ++ initial).toArray
  let v := v.setIfInBounds 12 (wordAt v 12 ^^^ count.toUInt32)
  let v := v.setIfInBounds 13 (wordAt v 13 ^^^ (count >>> 32).toUInt32)
  let v := if last then v.setIfInBounds 14 (~~~(wordAt v 14)) else v
  let v := Blake2.orders.foldl (round (blockWords bytes)) v
  (h.zip (List.range 8)).map fun hi => hi.1 ^^^ wordAt v hi.2 ^^^ wordAt v (hi.2 + 8)

def start (size : Nat) : List UInt32 :=
  match initial with
  | [] => []
  | first :: rest => (first ^^^ 0x01010000 ^^^ size.toUInt32) :: rest

end Blake2s

def blake2s (size : Nat) (message : Bytes) : Bytes :=
  let blocks := Blake2.counted 64 message.length 0 (Blake2.blocks 64 message)
  let h := (blocks.foldl Blake2s.compress (Blake2s.start size)).toArray
  (List.range size).map fun i => (Blake2s.wordAt h (i / 4) >>> (8 * (i % 4)).toUInt32).toUInt8

@[simp] theorem length_blake2s (size : Nat) (message : Bytes) :
    (blake2s size message).length = size := by
  simp [blake2s]

end Ucan
