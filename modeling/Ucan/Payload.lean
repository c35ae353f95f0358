import Ucan.Capability
import Ucan.Did
import Ucan.Header

/-!
The payload of a token: who delegates which capabilities to whom, for how long, and on the grounds
of which proofs.
-/

set_option autoImplicit false

namespace Ucan

structure Payload where
  version : Option String
  issuer : Did
  audience : Did
  -- The time in seconds from which on the token is no longer valid, if any.
  expiresAt : Option UInt64
  -- The time in seconds from which on the token is valid, if not always.
  notBefore : Option UInt64
  nonce : Option String
  facts : Option Json
  capabilityMap : Option CapabilityMap
  -- Capabilities in the older layout.
  attenuations : Option (List Attenuation)
  proofList : Option (List String)
  extra : Members
  deriving DecidableEq

namespace Payload

def capabilities (p : Payload) : List Capability :=
  (p.capabilityMap.getD .empty).toList ++ (p.attenuations.getD []).map Attenuation.toCapability

def proofs (p : Payload) : List String := p.proofList.getD []

def isExpired (p : Payload) (now : UInt64) : Bool := p.expiresAt.any (· ≤ now)

def isTooEarly (p : Payload) (now : UInt64) : Bool := p.notBefore.any (now < ·)

def ofTime (t : UInt64) : Json := .number (.ofUInt64 t)

/-- The expiry is written even when there is none. -/
def fields (p : Payload) : List (String × Json) :=
  optionalMember "ucv" .string p.version ++
  [("iss", .string p.issuer.toString), ("aud", .string p.audience.toString),
    ("exp", p.expiresAt.elim .null ofTime)] ++
  optionalMember "nbf" ofTime p.notBefore ++
  optionalMember "nnc" .string p.nonce ++
  optionalMember "fct" id p.facts ++
  optionalMember "cap" CapabilityMap.toJson p.capabilityMap ++
  optionalMember "att" (fun as => .array (as.map (Json.ofMembers ·.toMembers))) p.attenuations ++
  optionalMember "prf" (fun ps => .array (ps.map .string)) p.proofList

def toMembers (p : Payload) : Members := (Dict.ofList p.fields).insertAll p.extra.entries

def toJson (p : Payload) : Json := Json.ofMembers p.toMembers

/-- What was read of a payload so far; a member that was null is there and has no value. -/
structure Draft where
  version : Option (Option String) := none
  issuer : Option Did := none
  audience : Option Did := none
  expiresAt : Option (Option UInt64) := none
  notBefore : Option (Option UInt64) := none
  nonce : Option (Option String) := none
  facts : Option (Option Json) := none
  capabilityMap : Option (Option CapabilityMap) := none
  attenuations : Option (Option (List Attenuation)) := none
  proofList : Option (Option (List String)) := none
  extra : Members := .empty

open Json.Reader in
def did : Json.Reader Did := textOf Did.parse Did.Error.message

open Json.Reader in
def Draft.member (depth : Nat) (d : Draft) (name : String) :
    Except Json.Error (Json.Reader Draft) :=
  if name = "ucv" then
    once name d.version.isSome ((option string).map fun v => { d with version := some v })
  else if name = "iss" then
    once name d.issuer.isSome (did.map fun v => { d with issuer := some v })
  else if name = "aud" then
    once name d.audience.isSome (did.map fun v => { d with audience := some v })
  else if name = "exp" then
    once name d.expiresAt.isSome ((option uint64).map fun v => { d with expiresAt := some v })
  else if name = "nbf" then
    once name d.notBefore.isSome ((option uint64).map fun v => { d with notBefore := some v })
  else if name = "nnc" then
    once name d.nonce.isSome ((option string).map fun v => { d with nonce := some v })
  else if name = "fct" then
    once name d.facts.isSome ((option (value depth)).map fun v => { d with facts := some v })
  else if name = "cap" then
    once name d.capabilityMap.isSome
      ((option (CapabilityMap.reader depth)).map fun v => { d with capabilityMap := some v })
  else if name = "att" then
    once name d.attenuations.isSome
      ((option (list (within Attenuation.reader depth))).map fun v =>
        { d with attenuations := some v })
  else if name = "prf" then
    once name d.proofList.isSome
      ((option (list (within (fun _ => string) depth))).map fun v =>
        { d with proofList := some v })
  else .ok ((value depth).map fun v => { d with extra := d.extra.insert name v })

def Draft.finish (d : Draft) : Except Json.Error Payload := do
  let issuer ← Json.required "iss" d.issuer
  let audience ← Json.required "aud" d.audience
  return {
    version := d.version.join
    issuer
    audience
    expiresAt := d.expiresAt.join
    notBefore := d.notBefore.join
    nonce := d.nonce.join
    facts := d.facts.join
    capabilityMap := d.capabilityMap.join
    attenuations := d.attenuations.join
    proofList := d.proofList.join
    extra := d.extra }

open Json.Reader in
def reader : Json.Reader Payload :=
  (object "struct UcanPayload" (within Draft.member Json.maxDepth) {}).andThen Draft.finish

def parse (s : Bytes) : Except Json.Error Payload := Json.Reader.parse reader s

end Payload

end Ucan
