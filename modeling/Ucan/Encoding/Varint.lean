import Ucan.Bytes

/-!
Unsigned integers in groups of seven bits, least significant first; all bytes but the last have the
high bit. At most ten bytes are read, and none that adds nothing.
-/

set_option autoImplicit false

namespace Ucan.Varint

def encode (n : Nat) : Bytes :=
  if n < 128 then [UInt8.ofNat n] else UInt8.ofNat (n % 128 + 128) :: encode (n / 128)

/-- Reads on after the groups that make up `n`, of which there were `10 - left`. -/
def decodeFrom? (n : Nat) : (left : Nat) → Bytes → Option (UInt64 × Bytes)
  | 0, _ => none
  | _, [] => none
  | left + 1, b :: rest =>
    let m := n + (b.toNat % 128) <<< (7 * (9 - left))
    if b < 128 then
      if b = 0 ∧ left ≠ 9 then none else some (m.toUInt64, rest)
    else decodeFrom? m left rest

/-- The integer at the front and what follows it; bits above the sixty-fourth are dropped. -/
def decode? (s : Bytes) : Option (UInt64 × Bytes) := decodeFrom? 0 10 s

end Ucan.Varint
