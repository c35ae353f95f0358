import Ucan.Did
import Ucan.SignatureAlgorithm

/-!
Key pairs: a secret key of one of the signature algorithms, and the public key that belongs to it.
-/

set_option autoImplicit false

namespace Ucan

structure Keypair where
  algorithm : SignatureAlgorithm
  secret : algorithm.scheme.Secret

namespace Keypair

inductive Error where
  | invalidSecretKey
  deriving DecidableEq

def Error.message : Error → String
  | invalidSecretKey => "invalid secret key"

def ofSecret (algorithm : SignatureAlgorithm) (b : Bytes) : Except Error Keypair :=
  match algorithm.scheme.secret? b with
  | some secret => .ok ⟨algorithm, secret⟩
  | none => .error .invalidSecretKey

/-- The first secret key of 32 bytes among bytes at random. -/
def ofRandom? (algorithm : SignatureAlgorithm) (random : Bytes) : Option Keypair :=
  (Bytes.chunks 32 random).findSome? fun b => (algorithm.scheme.secret? b).map (⟨algorithm, ·⟩)

def publicKey (k : Keypair) : PublicKey := k.algorithm.scheme.publicKey k.secret

@[simp] theorem keyType_publicKey (k : Keypair) : k.publicKey.keyType = k.algorithm.keyType :=
  SignatureAlgorithm.keyType_publicKey k.algorithm k.secret

def did (k : Keypair) : Did := .key k.publicKey

def describe (k : Keypair) : String :=
  "Keypair \x7b public_key: " ++ k.publicKey.describe ++ ", .. \x7d"

end Keypair

end Ucan
