import Ucan.Token

/-!
References to proofs: a token itself, or the content identifier of one. What has a dot in it is a
token.
-/

set_option autoImplicit false

namespace Ucan

inductive ProofReference where
  | cid (id : Cid)
  | inline (text : String)
  deriving DecidableEq

inductive ResolveError where
  | notFound (reference : String)
  | invalidReference (reference : String)
  | malformed (reason : Token.DecodeError)
  | lookup (reason : String)
  deriving DecidableEq

def ResolveError.message : ResolveError → String
  | notFound reference => "proof not found: " ++ reference
  | invalidReference reference => "invalid proof reference: " ++ reference
  | malformed reason => "malformed proof: " ++ reason.message
  | lookup reason => "proof lookup failed: " ++ reason

namespace ProofReference

/-- Only identifiers of raw bytes refer to tokens. -/
def parse (text : String) : Except ResolveError ProofReference :=
  if '.' ∈ text.toList then .ok (.inline text)
  else match Cid.parse? text with
    | some id => if id.codec = Cid.raw then .ok (.cid id) else .error (.invalidReference text)
    | none => .error (.invalidReference text)

def hasher : ProofReference → Except ResolveError (Option HashAlgorithm)
  | cid id =>
    match id.hasher? with
    | some h => .ok (some h)
    | none => .error (.invalidReference id.toString)
  | inline _ => .ok none

end ProofReference

end Ucan
