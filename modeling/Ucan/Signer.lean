import Ucan.Keypair
import Ucan.Token

/-!
Signers, and how a token gets its signature.
-/

set_option autoImplicit false

namespace Ucan

inductive SigningError where
  | signingFailed (reason : String)
  | alreadySigned
  | issuerMismatch (signer : Did)
  | algorithmMismatch (signer : SignatureAlgorithm)
  deriving DecidableEq

def SigningError.message : SigningError → String
  | signingFailed reason => "signing failed: " ++ reason
  | alreadySigned => "token is already signed"
  | issuerMismatch signer => "signer " ++ signer.toString ++ " is not the token issuer"
  | algorithmMismatch signer =>
    "signer algorithm " ++ signer.name ++ " does not match the token header"

structure Signer where
  did : Did
  algorithm : SignatureAlgorithm
  sign : Bytes → Except SigningError Bytes

namespace Keypair

def sign (k : Keypair) (message : Bytes) : Except SigningError Bytes :=
  match k.algorithm.scheme.sign k.secret message with
  | .ok signature => .ok signature
  | .error reason => .error (.signingFailed reason)

def signerFor (k : Keypair) (did : Did) : Signer := ⟨did, k.algorithm, k.sign⟩

def signer (k : Keypair) : Signer := k.signerFor k.did

end Keypair

/-- Only a token without signature is signed, and only by its issuer. -/
def Token.sign (t : Token) (signer : Signer) : Except SigningError Token :=
  if t.signature.isSome then .error .alreadySigned
  else if signer.did ≠ t.issuer then .error (.issuerMismatch signer.did)
  else if signer.algorithm.name ≠ t.header.algorithm then
    .error (.algorithmMismatch signer.algorithm)
  else (signer.sign t.wire.signedBytes).map fun signature =>
    { t with wire := { t.wire with signature := some signature } }

end Ucan
