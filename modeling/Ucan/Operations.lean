import Ucan.BuildOptions
import Ucan.Validator

/-!
What is done with tokens in their text form, with the limits and the key resolver that are used when
nothing else is asked for.
-/

set_option autoImplicit false

namespace Ucan

inductive Error where
  | decode (reason : Token.DecodeError)
  | signature (reason : SignatureError)
  | validation (reason : ValidationError)
  | hash (reason : HashAlgorithm.Unsupported)
  | did (reason : Did.Error)
  | build (reason : BuildError)
  deriving DecidableEq

def Error.message : Error → String
  | decode reason => "malformed token: " ++ reason.message
  | signature reason => "invalid signature: " ++ reason.message
  | validation reason => "validation failed: " ++ reason.message
  | hash reason => reason.message
  | did reason => "invalid DID: " ++ reason.message
  | build reason => "building token: " ++ reason.message

def within {ε α : Type} (name : ε → Error) : Except ε α → Except Error α
  | .ok a => .ok a
  | .error e => .error (name e)

def decode (text : String) : Except Error Token := within .decode (Token.decode text)

/-- The signature is that of the issuer, whose DID holds its key. -/
def checkSignature (text : String) : Except Error Unit := do
  let t ← decode text
  within .signature (t.checkSignature .ofDid)

def validateWith (proofs : ProofReference → Except ResolveError Token) (now : UInt64)
    (text : String) : Except Error Unit := do
  let t ← decode text
  within .validation (({} : Validator).validate proofs now t)

/-- Only proofs that the token holds itself are found. -/
def validate (now : UInt64) (text : String) : Except Error Unit :=
  validateWith ProofReference.resolveInline now text

def isExpired (now : UInt64) (text : String) : Except Error Bool :=
  (decode text).map (·.isExpired now)

def isTooEarly (now : UInt64) (text : String) : Except Error Bool :=
  (decode text).map (·.isTooEarly now)

def cidOf (hash : Option String) (text : String) : Except Error Cid := do
  let h ← match hash with
    | some name => within .hash (HashAlgorithm.parse name)
    | none => .ok .standard
  return (← decode text).cid h

/-- What a token of the signer for the audience is built from. -/
def builder (signer : Signer) (audience : String) (options : BuildOptions) :
    Except Error Builder := do
  let audience ← within .did (Did.parse audience)
  return .ofSettings (.issuedBy signer :: .audience audience :: options.settings)

def build (signer : Signer) (audience : String) (options : BuildOptions) (now : UInt64) :
    Except Error Token := do
  within .build ((← builder signer audience options).build now)

def buildSigned (signer : Signer) (audience : String) (options : BuildOptions) (now : UInt64) :
    Except Error Token := do
  within .build ((← builder signer audience options).buildSigned now signer)

end Ucan
