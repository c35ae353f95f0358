import Ucan.Json.Reader

/-!
The header of a token: its signature algorithm and its type.
-/

set_option autoImplicit false

namespace Ucan

def optionalMember {α : Type} (name : String) (toJson : α → Json) (a : Option α) :
    List (String × Json) :=
  (a.map fun a => (name, toJson a)).toList

structure Header where
  algorithm : String
  tokenType : String
  -- The format version, which only the older layout has here.
  version : Option String
  extra : Members
  deriving DecidableEq

namespace Header

def toMembers (h : Header) : Members :=
  (Dict.ofList ([("alg", .string h.algorithm), ("typ", .string h.tokenType)] ++
    optionalMember "ucv" .string h.version)).insertAll h.extra.entries

def toJson (h : Header) : Json := Json.ofMembers h.toMembers

/-- What was read of a header so far; a member that was null is there and has no value. -/
structure Draft where
  algorithm : Option String := none
  tokenType : Option String := none
  version : Option (Option String) := none
  extra : Members := .empty

open Json.Reader in
def Draft.member (depth : Nat) (d : Draft) (name : String) :
    Except Json.Error (Json.Reader Draft) :=
  if name = "alg" then
    once name d.algorithm.isSome (string.map fun v => { d with algorithm := some v })
  else if name = "typ" then
    once name d.tokenType.isSome (string.map fun v => { d with tokenType := some v })
  else if name = "ucv" then
    once name d.version.isSome ((option string).map fun v => { d with version := some v })
  else .ok ((value depth).map fun v => { d with extra := d.extra.insert name v })

def Draft.finish (d : Draft) : Except Json.Error Header := do
  let algorithm ← Json.required "alg" d.algorithm
  let tokenType ← Json.required "typ" d.tokenType
  return ⟨algorithm, tokenType, d.version.join, d.extra⟩

open Json.Reader in
def reader : Json.Reader Header :=
  (object "struct UcanHeader" (within Draft.member Json.maxDepth) {}).andThen Draft.finish

def parse (s : Bytes) : Except Json.Error Header := Json.Reader.parse reader s

end Header

end Ucan
