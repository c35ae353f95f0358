import Ucan.Bytes

/-!
Byte strings written with three digits for two bytes, as base45 does. The digits of a number come
least significant first, and two of them are enough for a last single byte.
-/

set_option autoImplicit false

namespace Ucan.Triples

/-- Three digits must not write more than two bytes hold; of two only the low byte counts. -/
def decode? (base : Nat) : List Nat → Option Bytes
  | [] => some []
  | [_] => none
  | [a, b] => some [UInt8.ofNat (a + base * b)]
  | a :: b :: c :: rest => do
    let n := a + base * (b + base * c)
    if n < 65536 then
      let back ← decode? base rest
      some (UInt8.ofNat (n / 256) :: UInt8.ofNat n :: back)
    else none

end Ucan.Triples
