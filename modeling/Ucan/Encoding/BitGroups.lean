import Ucan.Encoding.Positional

/-!
Byte strings written in groups of a few bits, as base32 does. The last group is filled up with zero
bits, of which there are fewer than a group and which decoding insists on.
-/

set_option autoImplicit false

namespace Ucan.BitGroups

def digits (base : Nat) : (count n : Nat) → List Nat
  | 0, _ => []
  | count + 1, n => digits base count (n / base) ++ [n % base]

def encode (width : Nat) (b : Bytes) : List Nat :=
  let bits := 8 * b.length
  let count := (bits + width - 1) / width
  digits (1 <<< width) count (Bytes.toNat b <<< (count * width - bits))

def decode? (width : Nat) (groups : List Nat) : Option Bytes :=
  let bits := width * groups.length
  let spare := bits % 8
  let n := Positional.ofDigits (1 <<< width) groups
  if spare < width ∧ n % (1 <<< spare) = 0 then some (Bytes.ofNat (bits / 8) (n >>> spare))
  else none

end Ucan.BitGroups
