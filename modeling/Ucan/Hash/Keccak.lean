import Ucan.Bytes

/-!
The sponge functions of FIPS 202 and the Keccak functions they came from, which differ only in how
the message is ended.
-/

set_option autoImplicit false

namespace Ucan.Keccak

/-- Twenty-five lanes of 64 bits: lane `(x, y)` stands at `x + 5 * y`. -/
abbrev State := Array UInt64

def lane (s : State) (i : Nat) : UInt64 := s.getD i 0

/-- The next state of the register of eight bits that the round constants are drawn from. -/
def advance (register : Nat) : Nat :=
  if register < 128 then 2 * register else 2 * register ^^^ 0x171

/-- Where a round constant may have bits. -/
def places : List Nat := [0, 1, 3, 7, 15, 31, 63]

def drawConstant (register : Nat) : Nat × Nat :=
  places.foldl (fun (register, constant) place =>
    (advance register, constant + (register % 2) <<< place)) (register, 0)

def constantsFrom : (rounds register : Nat) → List UInt64
  | 0, _ => []
  | rounds + 1, register =>
    let (register, constant) := drawConstant register
    constant.toUInt64 :: constantsFrom rounds register

def roundConstants : List UInt64 := constantsFrom 24 1

def rotations : List UInt64 := [
  0, 1, 62, 28, 27,
  36, 44, 6, 55, 20,
  3, 10, 43, 25, 39,
  41, 45, 15, 21, 8,
  18, 2, 61, 56, 14]

def rotl (x n : UInt64) : UInt64 := if n = 0 then x else x <<< n ||| x >>> (64 - n)

/-- Adds to each bit the parities of two columns beside it. -/
def theta (s : State) : State :=
  let parity := Array.ofFn fun x : Fin 5 =>
    lane s x ^^^ lane s (x + 5) ^^^ lane s (x + 10) ^^^ lane s (x + 15) ^^^ lane s (x + 20)
  Array.ofFn fun i : Fin 25 =>
    lane s i ^^^ lane parity ((i + 4) % 5) ^^^ rotl (lane parity ((i + 1) % 5)) 1

/-- Turns the lanes and moves lane `(x, y)` to `(y, 2 * x + 3 * y)`. -/
def rhoPi (s : State) : State :=
  let turned := ((s.toList.zip rotations).map fun lr => rotl lr.1 lr.2).toArray
  Array.ofFn fun i : Fin 25 =>
    let x := i.val % 5
    let y := i.val / 5
    lane turned ((x + 3 * y) % 5 + 5 * x)

/-- Mixes the lanes of each row, and the constant into the first lane. -/
def chiIota (constant : UInt64) (s : State) : State :=
  Array.ofFn fun i : Fin 25 =>
    let row := i.val / 5 * 5
    let mixed := lane s i ^^^ ~~~(lane s (row + (i + 1) % 5)) &&& lane s (row + (i + 2) % 5)
    if i = 0 then mixed ^^^ constant else mixed

def permute (s : State) : State :=
  roundConstants.foldl (fun s constant => chiIota constant (rhoPi (theta s))) s

/-- Adds a block to the front of the state and permutes it. -/
def absorb (s : State) (block : Bytes) : State :=
  let words := ((Bytes.chunks 8 block).map fun w => (Bytes.toNatLE w).toUInt64).toArray
  permute (Array.ofFn fun i : Fin 25 => lane s i ^^^ lane words i)

/-- The message with its ending, zeros up to the end of a block, and the last bit of the block. -/
def pad (rate : Nat) (ending : UInt8) (message : Bytes) : Bytes :=
  let zeros := rate - 1 - message.length % rate
  if zeros = 0 then message ++ [ending ||| 0x80]
  else message ++ ending :: List.replicate (zeros - 1) 0 ++ [0x80]

def byteAt (s : State) (i : Nat) : UInt8 := (lane s (i / 8) >>> (8 * (i % 8)).toUInt64).toUInt8

/-- The first `size` bytes after the message is absorbed, with twice as many kept apart. -/
def hash (ending : UInt8) (size : Nat) (message : Bytes) : Bytes :=
  let rate := 200 - 2 * size
  let s := (Bytes.chunks rate (pad rate ending message)).foldl absorb (Array.replicate 25 0)
  (List.range size).map (byteAt s)

@[simp] theorem length_hash (ending : UInt8) (size : Nat) (message : Bytes) :
    (hash ending size message).length = size := by
  simp [hash]

end Ucan.Keccak

namespace Ucan

def sha3 (size : Nat) (message : Bytes) : Bytes := Keccak.hash 0x06 size message

/-- The function as it was before FIPS 202, with a digest of `size` bytes. -/
def keccak (size : Nat) (message : Bytes) : Bytes := Keccak.hash 0x01 size message

end Ucan
