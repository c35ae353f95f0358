import Ucan.KeyResolver
import Ucan.Proof.Reference

/-!
A single link of a delegation: a token, and a proof that it refers to.
-/

set_option autoImplicit false

namespace Ucan

/-- Why a delegation is not accepted. The reference is that of the proof at fault. -/
inductive ChainError where
  | proofNotFound (reference : String)
  | invalidReference (reference : String)
  | malformedProof (reference : String) (reason : Token.DecodeError)
  | lookupFailed (reference : String) (reason : String)
  | proofMismatch (reference : String)
  | brokenLink (reference : String) (audience issuer : Did)
  | proofSignature (reference : String) (reason : SignatureError)
  | proofExpired (reference : String)
  | proofTooEarly (reference : String)
  | lifetimeExceeded (reference : String)
  | tooDeep (limit : Nat)
  deriving DecidableEq

namespace ChainError

def shownLength : Nat := 64

/-- The beginning of a reference, which may be a whole token. -/
def shorten (reference : String) : String :=
  let cs := reference.toList
  if shownLength < cs.length then String.ofList (cs.take shownLength) ++ "..." else reference

def message : ChainError → String
  | proofNotFound r => "proof not found: " ++ shorten r
  | invalidReference r => "invalid proof reference: " ++ shorten r
  | malformedProof r reason => "malformed proof " ++ shorten r ++ ": " ++ reason.message
  | lookupFailed r reason => "looking up proof " ++ shorten r ++ " failed: " ++ reason
  | proofMismatch r => "proof " ++ r ++ " does not hash to its reference"
  | brokenLink r audience issuer =>
    "proof " ++ shorten r ++ " is delegated to " ++ audience.toString ++ ", not to " ++
      issuer.toString
  | proofSignature r reason => "invalid signature on proof " ++ shorten r ++ ": " ++ reason.message
  | proofExpired r => "proof " ++ shorten r ++ " is expired"
  | proofTooEarly r => "proof " ++ shorten r ++ " is not valid yet"
  | lifetimeExceeded r =>
    "lifetime of proof " ++ shorten r ++ " does not cover the delegated token"
  | tooDeep limit => "chain is deeper than max allowed: " ++ toString limit

/-- What it means for a delegation that a reference leads to no proof. -/
def ofResolve (reference : String) : ResolveError → ChainError
  | .notFound _ => proofNotFound reference
  | .invalidReference _ => invalidReference reference
  | .malformed reason => malformedProof reference reason
  | .lookup reason => lookupFailed reference reason

end ChainError

/-- A reference that can be checked against what it leads to: an identifier whose hash function is
known, or a token. -/
structure ProofTarget where
  reference : ProofReference
  hasher : Option HashAlgorithm
  deriving DecidableEq

namespace ProofTarget

def parse (text : String) : Except ResolveError ProofTarget := do
  let reference ← ProofReference.parse text
  return ⟨reference, ← reference.hasher⟩

/-- The token has the identifier. -/
def admits (target : ProofTarget) (t : Token) : Bool :=
  match target.reference, target.hasher with
  | .cid id, some h => t.cid h == id
  | _, _ => true

/-- The token that a reference was answered with has to be the one it denotes. -/
def check (target : ProofTarget) (reference : String) :
    Except ResolveError Token → Except ChainError Token
  | .error e => .error (.ofResolve reference e)
  | .ok proof => if target.admits proof then .ok proof else .error (.proofMismatch reference)

end ProofTarget

/-- The proof delegates to the issuer of the token, is signed and valid now, and does so for as long
as the token is valid. -/
def checkLink (keys : KeyResolver) (now : UInt64) (reference : String) (child proof : Token) :
    Except ChainError Unit :=
  if proof.audience ≠ child.issuer then
    .error (.brokenLink reference proof.audience child.issuer)
  else match proof.checkSignature keys with
    | .error e => .error (.proofSignature reference e)
    | .ok () =>
      if proof.isExpired now then .error (.proofExpired reference)
      else if proof.isTooEarly now then .error (.proofTooEarly reference)
      else if !proof.lifetimeEncompasses child then .error (.lifetimeExceeded reference)
      else .ok ()

end Ucan
