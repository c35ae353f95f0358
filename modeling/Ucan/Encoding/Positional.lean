import Ucan.Bytes

/-!
Byte strings written as one number in some base, as base58 does: each zero byte in front is one zero
digit, and the bytes after them are the number.
-/

set_option autoImplicit false

namespace Ucan.Positional

def ofDigits (base : Nat) (digits : List Nat) : Nat := digits.foldl (fun n d => base * n + d) 0

/-- The digits of a number without leading zeros, after those `done`; a base below two has none. -/
def toDigits (base : Nat) (n : Nat) (done : List Nat) : List Nat :=
  if _ : n = 0 ∨ base < 2 then done
  else toDigits base (n / base) (n % base :: done)
termination_by n
decreasing_by exact Nat.div_lt_self (by omega) (by omega)

def encode (base : Nat) (b : Bytes) : List Nat :=
  (b.takeWhile (· == 0)).map (fun _ => 0) ++ toDigits base (Bytes.toNat b) []

def decode (base : Nat) (digits : List Nat) : Bytes :=
  (digits.takeWhile (· == 0)).map (fun _ => 0) ++ Bytes.ofNatMin (ofDigits base digits)

end Ucan.Positional
