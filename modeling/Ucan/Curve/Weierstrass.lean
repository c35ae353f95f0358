import Ucan.Bytes
import Ucan.Modular

/-!
Elliptic curves y² = x³ + a x + b of odd order over a prime field, in projective coordinates. On
these curves one formula adds any two points.
-/

set_option autoImplicit false

namespace Ucan

/-- The point (x / z, y / z), or the neutral one when `z` is zero. -/
structure ProjectivePoint (p : Nat) where
  x : Residue p
  y : Residue p
  z : Residue p

structure WeierstrassCurve where
  -- The size of the field, a prime that is 3 modulo 4.
  p : Nat
  a : Residue p
  b : Residue p
  base : ProjectivePoint p
  -- How many points there are, a prime.
  order : Nat

namespace WeierstrassCurve

abbrev Point (c : WeierstrassCurve) := ProjectivePoint c.p

variable (c : WeierstrassCurve)

def neutral : c.Point := ⟨0, 1, 0⟩

def add (s t : c.Point) : c.Point :=
  let xx := s.x * t.x
  let yy := s.y * t.y
  let zz := s.z * t.z
  let xy := s.x * t.y + t.x * s.y
  let xz := s.x * t.z + t.x * s.z
  let yz := s.y * t.z + t.y * s.z
  let k := c.a * xz + 3 * c.b * zz
  let l := c.a * xx + 3 * c.b * xz - c.a * c.a * zz
  let m := 3 * xx + c.a * zz
  ⟨xy * (yy - k) - yz * l, m * l + (yy + k) * (yy - k), yz * (yy + k) + xy * m⟩

def mul (n : Nat) (s : c.Point) : c.Point := times c.add c.neutral s n

def affine? (s : c.Point) : Option (Residue c.p × Residue c.p) :=
  if s.z.val = 0 then none
  else
    let inverse := Residue.inverse s.z
    some (s.x * inverse, s.y * inverse)

def root? (x : Residue c.p) : Option (Residue c.p) :=
  let square := (x * x + c.a) * x + c.b
  let y := Residue.pow square ((c.p + 1) / 4)
  if y * y = square then some y else none

end WeierstrassCurve

def secp256k1 : WeierstrassCurve where
  p := 0xFFFFFFFFFFFFFFFFFFFFFFFFFFFFFFFFFFFFFFFFFFFFFFFFFFFFFFFEFFFFFC2F
  a := 0
  b := 7
  base :=
    ⟨0x79BE667EF9DCBBAC55A06295CE870B07029BFCDB2DCE28D959F2815B16F81798,
      0x483ADA7726A3C4655DA4FBFC0E1108A8FD17B448A68554199C47D08FFB10D4B8, 1⟩
  order := 0xFFFFFFFFFFFFFFFFFFFFFFFFFFFFFFFEBAAEDCE6AF48A03BBFD25E8CD0364141

def p256 : WeierstrassCurve where
  p := 0xFFFFFFFF00000001000000000000000000000000FFFFFFFFFFFFFFFFFFFFFFFF
  a := -3
  b := 0x5AC635D8AA3A93E7B3EBBD55769886BC651D06B0CC53B0F63BCE3C3E27D2604B
  base :=
    ⟨0x6B17D1F2E12C4247F8BCE6E563A440F277037D812DEB33A0F4A13945D898C296,
      0x4FE342E2FE1A7F9B8EE7EB4A7C0F9E162BCE33576B315ECECBB6406837BF51F5, 1⟩
  order := 0xFFFFFFFF00000000FFFFFFFFFFFFFFFFBCE6FAADA7179E84F3B9CAC2FC632551

end Ucan
