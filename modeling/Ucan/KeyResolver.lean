import Ucan.SignatureAlgorithm
import Ucan.Token

/-!
Which keys the signatures of a DID are checked with, and the check of a token's signature.
-/

set_option autoImplicit false

namespace Ucan

abbrev KeyResolver := Did → Except SignatureError PublicKey

namespace KeyResolver

def ofDid : KeyResolver := fun did =>
  match did.publicKey? with
  | some key => .ok key
  | none => .error (.unresolvableIssuer did.toString)

def ofList (keys : List (Did × PublicKey)) : KeyResolver := fun did =>
  match keys.lookup did with
  | some key => .ok key
  | none => .error (.unresolvableIssuer did.toString)

end KeyResolver

/-- The signature is the issuer's, over the text that was read. -/
def Token.checkSignature (t : Token) (keys : KeyResolver) : Except SignatureError Unit := do
  let algorithm ← SignatureAlgorithm.parse t.header.algorithm
  match t.signature with
  | none => .error .missingSignature
  | some signature =>
    let key ← keys t.issuer
    algorithm.verify key t.wire.signedBytes signature

end Ucan
