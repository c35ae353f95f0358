import Ucan.Signature.Ecdsa
import Ucan.Signature.Ed25519
import Ucan.Signature.Rsa

/-!
The signature algorithms that a header may name. Each goes with one type of keys.
-/

set_option autoImplicit false

namespace Ucan

inductive SignatureAlgorithm where
  | edDsa
  | es256
  | es256k
  | rs256
  deriving DecidableEq

namespace SignatureAlgorithm

def name : SignatureAlgorithm → String
  | edDsa => "EdDSA"
  | es256 => "ES256"
  | es256k => "ES256K"
  | rs256 => "RS256"

instance : ToString SignatureAlgorithm := ⟨name⟩

def all : List SignatureAlgorithm := [edDsa, es256, es256k, rs256]

def ofName? (name : String) : Option SignatureAlgorithm := all.find? (·.name == name)

@[simp] theorem ofName?_name (a : SignatureAlgorithm) : ofName? a.name = some a := by
  cases a <;> decide

theorem eq_name_of_ofName? {name : String} {a : SignatureAlgorithm}
    (h : ofName? name = some a) : name = a.name := by
  have := List.find?_some h
  simp only [beq_iff_eq] at this
  exact this.symm

def keyType : SignatureAlgorithm → KeyType
  | edDsa => .ed25519
  | es256 => .p256
  | es256k => .secp256k1
  | rs256 => .rsa

def scheme : SignatureAlgorithm → SignatureScheme
  | edDsa => Ed25519.scheme
  | es256 => Ecdsa.scheme Ecdsa.overP256 .p256
  | es256k => Ecdsa.scheme Ecdsa.overSecp256k1 .secp256k1
  | rs256 => Rsa.scheme

theorem keyType_publicKey (a : SignatureAlgorithm) (secret : a.scheme.Secret) :
    (a.scheme.publicKey secret).keyType = a.keyType := by
  cases a <;> rfl

end SignatureAlgorithm

inductive SignatureError where
  | unsupportedAlgorithm (name : String)
  | algorithmKeyMismatch (algorithm : SignatureAlgorithm) (type : KeyType)
  | unresolvableIssuer (did : String)
  | invalidPublicKey
  | malformedSignature
  | missingSignature
  | invalidSignature
  deriving DecidableEq

def SignatureError.message : SignatureError → String
  | unsupportedAlgorithm name => "unsupported signature algorithm: " ++ name
  | algorithmKeyMismatch algorithm type =>
    "algorithm " ++ algorithm.name ++ " cannot be used with " ++ type.name ++ " keys"
  | unresolvableIssuer did => "cannot resolve a public key for " ++ did
  | invalidPublicKey => "invalid issuer public key"
  | malformedSignature => "malformed signature"
  | missingSignature => "token is not signed"
  | invalidSignature => "invalid signature"

namespace SignatureAlgorithm

def parse (name : String) : Except SignatureError SignatureAlgorithm :=
  match ofName? name with
  | some a => .ok a
  | none => .error (.unsupportedAlgorithm name)

def verify (a : SignatureAlgorithm) (key : PublicKey) (message signature : Bytes) :
    Except SignatureError Unit :=
  if key.keyType ≠ a.keyType then .error (.algorithmKeyMismatch a key.keyType)
  else match a.scheme.key? key.bytes with
    | none => .error .invalidPublicKey
    | some key =>
      match a.scheme.signature? signature with
      | none => .error .malformedSignature
      | some signature =>
        if a.scheme.accepts key message signature then .ok () else .error .invalidSignature

end SignatureAlgorithm

end Ucan
