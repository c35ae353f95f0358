import Ucan.Encoding.Base64Url

/-!
The wire form of a token: header, payload and signature in base64, with a dot between them. An
unsigned token has nothing after the second dot.
-/

set_option autoImplicit false

namespace Ucan

structure Wire where
  header : Bytes
  payload : Bytes
  signature : Option Bytes
  deriving DecidableEq

namespace Wire

inductive Segment where
  | header
  | payload
  | signature
  deriving DecidableEq

def Segment.name : Segment → String
  | header => "header"
  | payload => "payload"
  | signature => "signature"

inductive Error where
  | segmentCount (found : Nat)
  | emptySegment (segment : Segment)
  | malformedEncoding (segment : Segment) (reason : Base64Url.Error)
  deriving DecidableEq

def Error.message : Error → String
  | segmentCount found =>
    "malformed token framing: expected 3 segments, found " ++ toString found
  | emptySegment segment =>
    "malformed token framing: " ++ segment.name ++ " segment is empty"
  | malformedEncoding segment reason =>
    "invalid base64 found on " ++ segment.name ++ ": " ++ reason.message

def signedBytes (w : Wire) : Bytes :=
  Base64Url.encode w.header ++ Ascii.dot :: Base64Url.encode w.payload

def bytes (w : Wire) : Bytes :=
  w.signedBytes ++ Ascii.dot :: Base64Url.encode (w.signature.getD [])

def decodeSegment (segment : Segment) (s : Bytes) : Except Error Bytes :=
  match Base64Url.decode s with
  | .ok b => .ok b
  | .error e => .error (.malformedEncoding segment e)

def ofBytes (s : Bytes) : Except Error Wire :=
  match s.splitOn Ascii.dot with
  | [header, payload, signature] =>
    if header = [] then .error (.emptySegment .header)
    else if payload = [] then .error (.emptySegment .payload)
    else do
      let header ← decodeSegment .header header
      let payload ← decodeSegment .payload payload
      let signature ←
        if signature = [] then .ok none
        else (decodeSegment .signature signature).map some
      return ⟨header, payload, signature⟩
  | segments => .error (.segmentCount segments.length)

end Wire

end Ucan
