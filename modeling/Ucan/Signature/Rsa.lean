import Ucan.Der
import Ucan.Hash.Sha2
import Ucan.Modular
import Ucan.Signature.Scheme

/-!
RSA signatures with the padding of PKCS#1 version 1.5 and SHA-256. Public keys are PKCS#1 documents,
secret keys PKCS#8 documents.
-/

set_option autoImplicit false

namespace Ucan.Rsa

structure Key where
  modulus : Nat
  exponent : Nat
  deriving DecidableEq

namespace Key

def size (key : Key) : Nat := (key.modulus.log2 + 8) / 8

def minExponent : Nat := 2

def maxExponent : Nat := 0x1FFFFFFFF

def isValid (key : Key) : Bool :=
  key.modulus % 2 == 1 && key.exponent % 2 == 1 && key.exponent < key.modulus &&
    minExponent ≤ key.exponent && key.exponent ≤ maxExponent

/-- How many bits the modulus of a key that is read may have. -/
def maxBits : Nat := 4096

def encode (key : Key) : Bytes :=
  Der.encode Der.tagSequence (Der.encodeNat key.modulus ++ Der.encodeNat key.exponent)

def decode? (document : Bytes) : Option Key := do
  match ← Der.elements? (← Der.content? Der.tagSequence document) with
  | [n, e] =>
    let key : Key := ⟨← Der.nat? n, ← Der.nat? e⟩
    if key.isValid ∧ key.modulus.log2 < maxBits then some key else none
  | _ => none

def apply (key : Key) (n : Nat) : Nat := powMod key.modulus n key.exponent

end Key

/-- The name of SHA-256 and the beginning of the digest that follows it. -/
def digestHeader : Bytes :=
  [0x30, 0x31, 0x30, 0x0D, 0x06, 0x09, 0x60, 0x86, 0x48, 0x01, 0x65, 0x03, 0x04, 0x02, 0x01, 0x05,
    0x00, 0x04, 0x20]

/-- How many bytes the padding has at least, next to the digest and its name. -/
def minPadding : Nat := 11

/-- The digest of the message filled up to the size of the key, if it fits. -/
def pad? (size : Nat) (message : Bytes) : Option Nat :=
  let digest := digestHeader ++ sha256 message
  if size < digest.length + minPadding then none
  else
    let filling := List.replicate (size - digest.length - 3) 0xFF
    some (Bytes.toNat (0 :: 1 :: filling ++ 0 :: digest))

def accepts (key : Key) (message signature : Bytes) : Bool :=
  let n := Bytes.toNat signature
  signature.length == key.size && n < key.modulus && pad? key.size message == some (key.apply n)

structure Secret where
  key : Key
  exponent : Nat
  p : Nat
  q : Nat

/-- The two factors make up the modulus, and the product of the exponents leaves one when divided by
either less one. That the factors are primes is not checked. -/
def Secret.isValid (secret : Secret) : Bool :=
  let product := secret.exponent * secret.key.exponent
  secret.key.isValid && secret.p * secret.q == secret.key.modulus &&
    product % (secret.p - 1) == 1 && product % (secret.q - 1) == 1

/-- Two factors and the numbers that belong to them; some of those are not looked at. -/
def Secret.decode? (document : Bytes) : Option Secret := do
  let numbers ← (← Der.elements? (← Der.content? Der.tagSequence document)).mapM Der.nat?
  match numbers with
  | [version, n, e, d, p, q, _, _, _] =>
    let secret : Secret := ⟨⟨n, e⟩, d, p, q⟩
    if version = 0 ∧ secret.isValid then some secret else none
  | _ => none

/-- The object identifier of RSA keys and the parameters that go with it. -/
def algorithmIdentifier : List Der.Element :=
  [⟨Der.tagObjectIdentifier, [0x2A, 0x86, 0x48, 0x86, 0xF7, 0x0D, 0x01, 0x01, 0x01]⟩,
    ⟨Der.tagNull, []⟩]

def isAttribute (e : Der.Element) : Bool :=
  Der.isContextTag e.tag && Der.isConstructed e.tag &&
    (Der.elements? e.content).any (·.length == 1)

def isPublicKeyCopy (e : Der.Element) : Bool :=
  !Der.isConstructed e.tag && e.content.head? == some 0

/-- The optional elements: first those numbered zero, of which anything goes, then in version 1, and
only there, a copy of the public key, which is numbered one, then attributes. -/
def areExtras (version : Nat) (es : List Der.Element) : Bool :=
  let numbered (n : UInt8) (e : Der.Element) : Bool :=
    Der.isContextTag e.tag && Der.tagNumber e.tag == n
  match es.dropWhile (numbered 0) with
  | [] => version == 0
  | e :: rest =>
    if numbered 1 e then version == 1 && isPublicKeyCopy e && rest.all isAttribute
    else version == 0 && isAttribute e && rest.all isAttribute

def secret? (document : Bytes) : Option Secret := do
  match ← Der.elements? (← Der.content? Der.tagSequence document) with
  | version :: algorithm :: key :: extras =>
    let version ← Der.nat? version
    let identifier ← Der.elements? algorithm.content
    if version ≤ 1 ∧ algorithm.tag = Der.tagSequence ∧ identifier = algorithmIdentifier ∧
        key.tag = Der.tagOctetString ∧ areExtras version extras then
      Secret.decode? key.content
    else none
  | _ => none

/-- The secret operation: modulo each factor, with the exponent taken modulo the factor less one;
but modulo their product where the factors are not coprime. -/
def Secret.apply (secret : Secret) (n : Nat) : Nat :=
  let part (factor : Nat) : Nat := powMod factor n (secret.exponent % (factor - 1))
  (combine? secret.p secret.q (part secret.p) (part secret.q)).getD
    (powMod secret.key.modulus n secret.exponent)

/-- A signature that the public key would not accept is not given out. -/
def sign (secret : Secret) (message : Bytes) : Except String Bytes :=
  match pad? secret.key.size message with
  | none => .error "message too long"
  | some padded =>
    let signature := secret.apply padded
    if secret.key.apply signature = padded then .ok (Bytes.ofNat secret.key.size signature)
    else .error "internal error"

def scheme : SignatureScheme where
  Secret := Secret
  Key := Key
  Signature := Bytes
  secret? := secret?
  publicKey secret := .rsa secret.key.encode
  key? := Key.decode?
  signature? := some
  accepts := accepts
  sign := sign

end Ucan.Rsa
