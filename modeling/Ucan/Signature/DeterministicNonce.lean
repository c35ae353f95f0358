import Ucan.Hash.Hmac

/-!
Secret numbers that are drawn from a key and a message, so that the same message always gets the
same signature: the generator of RFC 6979.
-/

set_option autoImplicit false

namespace Ucan.DeterministicNonce

structure Generator where
  key : Bytes
  value : Bytes

def Generator.step (g : Generator) (mark : UInt8) (data : Bytes) : Generator :=
  let key := hmac g.key (g.value ++ mark :: data)
  ⟨key, hmac key g.value⟩

def Generator.start (data : Bytes) : Generator :=
  let g : Generator := ⟨List.replicate 32 0, List.replicate 32 1⟩
  (g.step 0 data).step 1 data

/-- The first number drawn that is neither zero nor too large, if it is among the first few. -/
def Generator.draw? (limit : Nat) : (tries : Nat) → Generator → Option Nat
  | 0, _ => none
  | tries + 1, g =>
    let value := hmac g.key g.value
    let n := Bytes.toNat value
    if 0 < n ∧ n < limit then some n
    else draw? limit tries (Generator.step ⟨g.key, value⟩ 0 [])

/-- How many numbers are drawn at most. One is out of range about once in 2³² times. -/
def tries : Nat := 64

/-- The digest goes in as it is, even when the number it writes is above the limit. -/
def nonce? (limit secret : Nat) (digest : Bytes) : Option Nat :=
  (Generator.start (Bytes.ofNat 32 secret ++ digest)).draw? limit tries

end Ucan.DeterministicNonce
