import Ucan.Cid
import Ucan.Payload
import Ucan.Wire

/-!
Tokens: a header and a payload, together with the bytes that they were read from or written as.
-/

set_option autoImplicit false

namespace Ucan

structure Token where
  wire : Wire
  header : Header
  payload : Payload
  deriving DecidableEq

namespace Token

def tokenType : String := "JWT"

def formatVersion : String := "0.10.0"

def maxSize : Nat := 64 * 1024

inductive DecodeError where
  | tooLarge (limit : Nat)
  | malformed (reason : Wire.Error)
  | malformedJson (segment : Wire.Segment) (reason : Json.Error)
  | invalidTokenType (found : String)
  | missingVersion
  | missingCapabilities
  deriving DecidableEq

def DecodeError.message : DecodeError → String
  | tooLarge limit => "token is larger than max allowed: " ++ toString limit ++ " bytes"
  | malformed reason => reason.message
  | malformedJson segment reason =>
    "invalid JSON on " ++ segment.name ++ ": " ++ reason.message
  | invalidTokenType found =>
    "invalid token type: expected '" ++ tokenType ++ "', got '" ++ found ++ "'"
  | missingVersion => "no format version in header or payload"
  | missingCapabilities => "no capabilities in payload"

def parseSegment {α : Type} (segment : Wire.Segment) (parse : Bytes → Except Json.Error α)
    (s : Bytes) : Except DecodeError α :=
  match parse s with
  | .ok a => .ok a
  | .error e => .error (.malformedJson segment e)

/-- Only what makes a token well formed is checked: no signature, and no time. -/
def ofWire (wire : Wire) : Except DecodeError Token := do
  let header ← parseSegment .header Header.parse wire.header
  let payload ← parseSegment .payload Payload.parse wire.payload
  if header.tokenType ≠ tokenType then .error (.invalidTokenType header.tokenType)
  else if header.version = none ∧ payload.version = none then .error .missingVersion
  else if payload.capabilityMap = none ∧ payload.attenuations = none then
    .error .missingCapabilities
  else return ⟨wire, header, payload⟩

def decodeWithin (limit : Nat) (text : String) : Except DecodeError Token :=
  if limit < text.utf8ByteSize then .error (.tooLarge limit)
  else match Wire.ofBytes (utf8 text) with
    | .error e => .error (.malformed e)
    | .ok wire => ofWire wire

def decode (text : String) : Except DecodeError Token := decodeWithin maxSize text

/-- An unsigned token, written in canonical form. -/
def ofParts (header : Header) (payload : Payload) : Token :=
  ⟨⟨header.toJson.canonical, payload.toJson.canonical, none⟩, header, payload⟩

/-- The bytes that a signature of a token made from these parts covers. -/
def canonicalBytes (header : Header) (payload : Payload) : Bytes :=
  (ofParts header payload).wire.signedBytes

def encode (t : Token) : String := ofAscii t.wire.bytes

def signedData (t : Token) : String := ofAscii t.wire.signedBytes

def cid (t : Token) (h : HashAlgorithm) : Cid := h.cid t.wire.bytes

def signature (t : Token) : Option Bytes := t.wire.signature

/-- The format version, wherever it is. -/
def version (t : Token) : String := (t.payload.version <|> t.header.version).getD ""

def issuer (t : Token) : Did := t.payload.issuer

def audience (t : Token) : Did := t.payload.audience

def proofs (t : Token) : List String := t.payload.proofs

def isExpired (t : Token) (now : UInt64) : Bool := t.payload.isExpired now

def isTooEarly (t : Token) (now : UInt64) : Bool := t.payload.isTooEarly now

/-- The lifetime of this token begins no later than that of the other. -/
def lifetimeBeginsBefore (t other : Token) : Bool :=
  match t.payload.notBefore, other.payload.notBefore with
  | some a, some b => a ≤ b
  | some _, none => false
  | none, _ => true

/-- The lifetime of this token ends no earlier than that of the other. -/
def lifetimeEndsAfter (t other : Token) : Bool :=
  match t.payload.expiresAt, other.payload.expiresAt with
  | some a, some b => b ≤ a
  | some _, none => false
  | none, _ => true

def lifetimeEncompasses (t other : Token) : Bool :=
  t.lifetimeBeginsBefore other && t.lifetimeEndsAfter other

end Token

end Ucan
