import Ucan.Delegation.Walk

/-!
Validation of tokens: the signature first, then the time, then the delegation.
-/

set_option autoImplicit false

namespace Ucan

inductive ValidationError where
  | signature (reason : SignatureError)
  | expired (expiresAt now : UInt64)
  | tooEarly (notBefore now : UInt64)
  | chain (reason : ChainError)
  deriving DecidableEq

namespace ValidationError

def message : ValidationError → String
  | signature reason => "invalid signature: " ++ reason.message
  | expired expiresAt now =>
    "token expired at " ++ toString expiresAt.toNat ++ ", current time is " ++ toString now.toNat
  | tooEarly notBefore now =>
    "token is not valid before " ++ toString notBefore.toNat ++ ", current time is " ++
      toString now.toNat
  | chain reason => "invalid proof chain: " ++ reason.message

def summary : ValidationError → String
  | signature _ => "invalid signature"
  | expired .. => "token is expired"
  | tooEarly .. => "`not before` date not met"
  | chain _ => "broken delegation chain"

end ValidationError

structure Validator where
  -- How many links may lead from a token to a proof.
  maxDepth : Nat := 8
  keys : KeyResolver := .ofDid

namespace Validator

def checkSignature (v : Validator) (t : Token) : Except ValidationError Unit :=
  match t.checkSignature v.keys with
  | .error e => .error (.signature e)
  | .ok () => .ok ()

def checkTime (now : UInt64) (t : Token) : Except ValidationError Unit :=
  match t.payload.expiresAt.filter (· ≤ now), t.payload.notBefore.filter (now < ·) with
  | some expiresAt, _ => .error (.expired expiresAt now)
  | none, some notBefore => .error (.tooEarly notBefore now)
  | none, none => .ok ()

def validateWith {σ : Type} (v : Validator) (proofs : ProofResolver σ) (state : σ) (now : UInt64)
    (t : Token) : Except ValidationError Unit := do
  v.checkSignature t
  checkTime now t
  match (Delegation.Context.walk ⟨proofs, v.keys, v.maxDepth, now⟩ t state).1 with
  | .error e => .error (.chain e)
  | .ok () => .ok ()

/-- With proofs that are found the same way each time. -/
def validate (v : Validator) (proofs : ProofReference → Except ResolveError Token) (now : UInt64)
    (t : Token) : Except ValidationError Unit :=
  v.validateWith (.ofFunction proofs) () now t

end Validator

end Ucan
