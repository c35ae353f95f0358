import Ucan.Curve.Weierstrass
import Ucan.Hash.Sha2
import Ucan.Signature.DeterministicNonce
import Ucan.Signature.Scheme

/-!
ECDSA with SHA-256 over curves whose numbers have 32 bytes. Signatures are two such numbers, public
keys are compressed points.
-/

set_option autoImplicit false

namespace Ucan.Ecdsa

structure Parameters where
  curve : WeierstrassCurve
  -- Of two numbers that would both do as second half of a signature, only the lower one does.
  onlyLow : Bool
  -- Which of two opposite y coordinates a point written without one has.
  isMain : Residue curve.p → Bool

/-- With only lower halves, and points on the even side. -/
def overSecp256k1 : Parameters := ⟨secp256k1, true, fun y => y.val % 2 == 0⟩

/-- With either half, and points on the lower side. -/
def overP256 : Parameters := ⟨p256, false, fun y => y.val ≤ (-y).val⟩

variable (e : Parameters)

abbrev Parameters.order (e : Parameters) : Nat := e.curve.order

/-- A number that is neither zero nor too large. -/
abbrev Parameters.Scalar (e : Parameters) : Type := { n : Nat // 0 < n ∧ n < e.order }

def scalar? (n : Nat) : Option e.Scalar :=
  if h : 0 < n ∧ n < e.order then some ⟨n, h⟩ else none

/-- Up to eight zeros may be missing in front. -/
def secret? (b : Bytes) : Option e.Scalar :=
  if 24 ≤ b.length ∧ b.length ≤ 32 then scalar? e (Bytes.toNat b) else none

/-- The parity of y and the bytes of x. -/
def encodePoint (s : e.curve.Point) : Bytes :=
  let (x, y) := (e.curve.affine? s).getD (0, 0)
  UInt8.ofNat (2 + y.val % 2) :: Bytes.ofNat 32 x.val

theorem length_encodePoint (s : e.curve.Point) : (encodePoint e s).length = 33 := by
  simp [encodePoint]

/-- Either of two opposite coordinates, whichever has the property. -/
def choose {p : Nat} (wanted : Residue p → Bool) (y : Residue p) : Residue p :=
  if wanted y then y else -y

/-- Which y is meant with an x, by the byte in front of it. -/
def wanted? (mark : UInt8) : Option (Residue e.curve.p → Bool) :=
  if mark = 2 then some fun y => y.val % 2 == 0
  else if mark = 3 then some fun y => y.val % 2 == 1
  else if mark = 5 then some e.isMain
  else none

def point? : Bytes → Option e.curve.Point
  | [] => none
  | mark :: x => do
    let wanted ← wanted? e mark
    if e.curve.p ≤ Bytes.toNat x then none
    else
      let x := Residue.ofNat (Bytes.toNat x)
      let y ← e.curve.root? x
      some ⟨x, choose wanted y, 1⟩

structure Parameters.Signature (e : Parameters) where
  r : e.Scalar
  s : e.Scalar

def signature? (b : Bytes) : Option e.Signature :=
  if b.length = 64 then do
    let r ← scalar? e (Bytes.toNat (b.take 32))
    let s ← scalar? e (Bytes.toNat (b.drop 32))
    some ⟨r, s⟩
  else none

def digest (message : Bytes) : Nat := Bytes.toNat (sha256 message) % e.order

def inverse (n : Nat) : Nat := powMod e.order n (e.order - 2)

def isLow (s : Nat) : Bool := 2 * s ≤ e.order

/-- The x coordinate of a point modulo the order, zero for the neutral one. -/
def abscissa (s : e.curve.Point) : Nat := ((e.curve.affine? s).elim 0 (·.1.val)) % e.order

def accepts (key : e.curve.Point) (message : Bytes) (t : e.Signature) : Bool :=
  let w := inverse e t.s.1
  let u := digest e message * w % e.order
  let v := t.r.1 * w % e.order
  (!e.onlyLow || isLow e t.s.1) &&
    abscissa e (e.curve.add (e.curve.mul u e.curve.base) (e.curve.mul v key)) == t.r.1

def sign? (secret : e.Scalar) (message : Bytes) : Option Bytes := do
  let z := digest e message
  let k ← DeterministicNonce.nonce? e.order secret.1 (sha256 message)
  let r := abscissa e (e.curve.mul k e.curve.base)
  let s := inverse e k * (z + r * secret.1) % e.order
  if r = 0 ∨ s = 0 then none
  else
    let s := if e.onlyLow && !isLow e s then e.order - s else s
    some (Bytes.ofNat 32 r ++ Bytes.ofNat 32 s)

/-- The keys are of the type that is made by `wrap`. -/
def scheme (wrap : { b : Bytes // b.length = 33 } → PublicKey) : SignatureScheme where
  Secret := e.Scalar
  Key := e.curve.Point
  Signature := e.Signature
  secret? := secret? e
  publicKey secret :=
    wrap ⟨encodePoint e (e.curve.mul secret.1 e.curve.base), length_encodePoint e _⟩
  key? := point? e
  signature? := signature? e
  accepts := accepts e
  sign secret message :=
    match sign? e secret message with
    | some b => .ok b
    | none => .error "signature error"

end Ucan.Ecdsa
