import Ucan.Signer

/-!
Building tokens: what is set first, and then the token it makes.
-/

set_option autoImplicit false

namespace Ucan

/-- A time before the first one counts as the first. -/
def epochSeconds (time : Int64) : UInt64 := time.toInt.toNat.toUInt64

theorem toNat_epochSeconds (time : Int64) :
    ((epochSeconds time).toNat : Int) = max 0 time.toInt := by
  have bound := time.toInt_lt
  have small : time.toInt.toNat < UInt64.size := by
    rw [UInt64.size]
    omega
  rw [epochSeconds, Nat.toUInt64, UInt64.toNat_ofNat_of_lt' small]
  omega

structure Builder where
  issuer : Option Did := none
  algorithm : Option SignatureAlgorithm := none
  audience : Option Did := none
  lifetime : Option UInt64 := none
  expiration : Option UInt64 := none
  notBefore : Option UInt64 := none
  nonce : Option String := none
  facts : Option Json := none
  capabilities : List Capability := []
  proofs : List String := []

inductive BuildError where
  | missingField (name : String)
  | conflictingExpiration
  | signing (reason : SigningError)
  deriving DecidableEq

def BuildError.message : BuildError → String
  | missingField name => "required field missing: " ++ name
  | conflictingExpiration => "only one of expiration or lifetime may be set"
  | signing reason => "signing failed: " ++ reason.message

namespace Builder

/-- What can be set. Of what a token has once the last one counts; capabilities and proofs add up. -/
inductive Setting where
  | issuer (did : Did) (algorithm : SignatureAlgorithm)
  | audience (did : Did)
  -- For how many seconds the token is valid from when it is built.
  | lifetime (seconds : UInt64)
  | expiration (time : UInt64)
  | notBefore (time : UInt64)
  | nonce (text : String)
  | facts (value : Json)
  | capabilities (list : List Capability)
  | proof (reference : String)

namespace Setting

def issuedBy (signer : Signer) : Setting := issuer signer.did signer.algorithm

def expiresAt (time : Int64) : Setting := expiration (epochSeconds time)

/-- The first bytes at random make up a nonce. -/
def randomNonce (random : Bytes) : Setting := nonce (ofAscii (Base64Url.encode (random.take 16)))

/-- Refers to a token by the identifier that it has under the hash function. -/
def proofBy (t : Token) (h : HashAlgorithm) : Setting := proof (t.cid h).toString

def witnessedBy (t : Token) : Setting := proofBy t .standard

end Setting

def set (b : Builder) : Setting → Builder
  | .issuer did algorithm => { b with issuer := some did, algorithm := some algorithm }
  | .audience did => { b with audience := some did }
  | .lifetime seconds => { b with lifetime := some seconds }
  | .expiration time => { b with expiration := some time }
  | .notBefore time => { b with notBefore := some time }
  | .nonce text => { b with nonce := some text }
  | .facts value => { b with facts := some value }
  | .capabilities list => { b with capabilities := b.capabilities ++ list }
  | .proof reference => { b with proofs := b.proofs ++ [reference] }

def setAll (b : Builder) (settings : List Setting) : Builder := settings.foldl set b

def ofSettings (settings : List Setting) : Builder := setAll {} settings

def lastTime : UInt64 := 0xFFFFFFFFFFFFFFFF

/-- The end of a lifetime that begins now; no time is later than the last one. -/
def saturatingAdd (now seconds : UInt64) : UInt64 :=
  if now.toNat + seconds.toNat < UInt64.size then now + seconds else lastTime

theorem toNat_saturatingAdd (now seconds : UInt64) :
    (saturatingAdd now seconds).toNat = min (now.toNat + seconds.toNat) (UInt64.size - 1) := by
  unfold saturatingAdd
  split
  next fits =>
    rw [UInt64.toNat_add, Nat.mod_eq_of_lt fits]
    omega
  next =>
    have last : lastTime.toNat = UInt64.size - 1 := rfl
    omega

/-- When the token expires, if ever. -/
def expiresAt (b : Builder) (now : UInt64) : Except BuildError (Option UInt64) :=
  match b.expiration, b.lifetime with
  | some _, some _ => .error .conflictingExpiration
  | some time, none => .ok (some time)
  | none, some seconds => .ok (some (saturatingAdd now seconds))
  | none, none => .ok none

def required {α : Type} (name : String) : Option α → Except BuildError α
  | some a => .ok a
  | none => .error (.missingField name)

def header (algorithm : SignatureAlgorithm) : Header where
  algorithm := algorithm.name
  tokenType := Token.tokenType
  version := none
  extra := .empty

def payload (b : Builder) (issuer audience : Did) (expiresAt : Option UInt64) : Payload where
  version := some Token.formatVersion
  issuer
  audience
  expiresAt
  notBefore := b.notBefore
  nonce := b.nonce
  facts := b.facts
  capabilityMap := some (.ofList b.capabilities)
  attenuations := none
  proofList := if b.proofs.isEmpty then none else some b.proofs
  extra := .empty

def build (b : Builder) (now : UInt64) : Except BuildError Token := do
  let issuer ← required "issuer" b.issuer
  let algorithm ← required "algorithm" b.algorithm
  let audience ← required "audience" b.audience
  let expiresAt ← b.expiresAt now
  return Token.ofParts (header algorithm) (b.payload issuer audience expiresAt)

def buildSigned (b : Builder) (now : UInt64) (signer : Signer) : Except BuildError Token := do
  let t ← b.build now
  match t.sign signer with
  | .ok signed => return signed
  | .error e => .error (.signing e)

end Builder

end Ucan
