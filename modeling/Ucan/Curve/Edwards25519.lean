import Ucan.Bytes
import Ucan.Modular

/-!
The twisted Edwards curve -x² + y² = 1 + d x² y² over the field of 2²⁵⁵ - 19 elements. One formula
adds any two points.
-/

set_option autoImplicit false

namespace Ucan.Edwards25519

/-- The size of the field, a prime that is 5 modulo 8. -/
def p : Nat := (1 <<< 255) - 19

/-- The order of the base point, a prime. -/
def order : Nat := (1 <<< 252) + 27742317777372353535851937790883648493

def d : Residue p := -(121665 * Residue.inverse 121666)

/-- A number whose square is -1. -/
def imaginary : Residue p := Residue.pow 2 ((p - 1) / 4)

/-- The point (x / z, y / z), with x y = z t. -/
structure Point where
  x : Residue p
  y : Residue p
  z : Residue p
  t : Residue p

namespace Point

def neutral : Point := ⟨0, 1, 1, 0⟩

def ofAffine (x y : Residue p) : Point := ⟨x, y, 1, x * y⟩

def add (s t : Point) : Point :=
  let a := (s.y - s.x) * (t.y - t.x)
  let b := (s.y + s.x) * (t.y + t.x)
  let c := 2 * d * s.t * t.t
  let zz := 2 * s.z * t.z
  let e := b - a
  let f := zz - c
  let g := zz + c
  let h := b + a
  ⟨e * f, g * h, f * g, e * h⟩

def neg (s : Point) : Point := { s with x := -s.x, t := -s.t }

def mul (n : Nat) (s : Point) : Point := times add neutral s n

/-- The base point, whose y is 4/5 and whose x is even. -/
def base : Point :=
  ofAffine 15112221349535400772501151409588531511454012693041857206046113283949847762202
    46316835694926478169428394003475163141307993866256225615783033603165251855960

/-- The y coordinate, with the last bit of x above it. -/
def encode (s : Point) : Bytes :=
  let inverse := Residue.inverse s.z
  let x := (s.x * inverse).val
  let y := (s.y * inverse).val
  Bytes.ofNatLE 32 (y + (x % 2) <<< 255)

@[simp] theorem length_encode (s : Point) : s.encode.length = 32 := by
  simp [encode, Bytes.ofNatLE]

def root? (u v : Residue p) : Option (Residue p) :=
  let cube := v * v * v
  let r := u * cube * Residue.pow (u * cube * cube * v) ((p - 5) / 8)
  let square := v * r * r
  if square = u then some r
  else if square = -u then some (r * imaginary)
  else none

/-- The point that the bytes stand for. A y of `p` and above stands for its remainder, and an x of
zero has either sign. -/
def decode? (b : Bytes) : Option Point :=
  let n := b.toNatLE
  let y : Residue p := Residue.ofNat (n % (1 <<< 255))
  (root? (y * y - 1) (d * y * y + 1)).map fun x =>
    ofAffine (if x.val % 2 = (n >>> 255) % 2 then x else -x) y

end Point

end Ucan.Edwards25519
