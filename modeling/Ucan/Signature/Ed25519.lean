import Ucan.Curve.Edwards25519
import Ucan.Hash.Sha2
import Ucan.Signature.Scheme

/-!
Signatures over Edwards25519. Secret keys are any 32 bytes, public keys and the first halves of
signatures are encoded points.
-/

set_option autoImplicit false

namespace Ucan.Ed25519

open Edwards25519

/-- The three lowest bits and the highest one cleared, the next highest one set. -/
def clamp (n : Nat) : Nat := (1 <<< 254) + n % (1 <<< 254) / 8 * 8

def factor (seed : Bytes) : Nat := clamp (Bytes.toNatLE ((sha512 seed).take 32))

def publicKey (seed : Bytes) : Bytes := (Point.base.mul (factor seed)).encode

/-- What ties the two halves of a signature to the key and the message. -/
def challenge (commitment key message : Bytes) : Nat :=
  Bytes.toNatLE (sha512 (commitment ++ key ++ message)) % order

def sign (seed message : Bytes) : Bytes :=
  let nonce := Bytes.toNatLE (sha512 ((sha512 seed).drop 32 ++ message)) % order
  let commitment := (Point.base.mul nonce).encode
  let k := challenge commitment (publicKey seed) message
  commitment ++ Bytes.ofNatLE 32 ((nonce + k * factor seed) % order)

theorem length_sign (seed message : Bytes) : (sign seed message).length = 64 := by
  simp [sign, Bytes.ofNatLE]

structure Signature where
  commitment : Bytes
  response : Nat

def signature? (b : Bytes) : Option Signature :=
  if b.length = 64 then some ⟨b.take 32, Bytes.toNatLE (b.drop 32)⟩ else none

/-- A point with the bytes it was read from, which are what the challenge is made with. -/
structure Key where
  bytes : Bytes
  point : Point

def key? (b : Bytes) : Option Key := (Point.decode? b).map (⟨b, ·⟩)

/-- The commitment has to be written as it would be written here. -/
def accepts (key : Key) (message : Bytes) (s : Signature) : Bool :=
  let k := challenge s.commitment key.bytes message
  s.response < order &&
    ((Point.base.mul s.response).add (key.point.neg.mul k)).encode == s.commitment

def scheme : SignatureScheme where
  Secret := { b : Bytes // b.length = 32 }
  Key := Key
  Signature := Signature
  secret? b := if h : b.length = 32 then some ⟨b, h⟩ else none
  publicKey seed := .ed25519 ⟨publicKey seed.1, by simp [publicKey]⟩
  key? := key?
  signature? := signature?
  accepts := accepts
  sign seed message := .ok (sign seed.1 message)

end Ucan.Ed25519
