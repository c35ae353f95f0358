import Ucan.Json.Reader

/-!
Arrays of a fixed number of elements, each of its own kind.
-/

set_option autoImplicit false

namespace Ucan.Json.Reader

open Ascii

variable {α β : Type}

def bind (read : Reader α) (next : α → Reader β) : Reader β := fun s =>
  match read s with
  | .error e => .error e
  | .ok (a, r) => (next a r.1).map fun (b, t) => (b, r.trans t)

/-- The element after `count` others. The array is called `wanted` when it has no more. -/
def element (wanted : String) (count : Nat) (read : Reader α) : Reader α := fun s =>
  match first? s with
  | none => .error .endInList
  | some (b, t) =>
    if b = closeBracket then .error (.invalidLength count wanted)
    else if count = 0 then read s
    else if b = comma then
      match first? t.1 with
      | none => .error .endInValue
      | some (c, _) =>
        if c = closeBracket then .error .trailingComma
        else (read t.1).map fun (a, r) => (a, t.trans r)
    else .error .expectedCommaOrBracket

def endOfElements : Reader Unit := fun s =>
  match first? s with
  | none => .error .endInList
  | some (b, t) =>
    if b = closeBracket then .ok ((), t)
    else if b = comma ∧ (first? t.1).any (·.1 == closeBracket) then .error .trailingComma
    else .error .trailingCharacters

/-- An array if it opens with a bracket, and otherwise what the other reader takes. -/
def arrayOr (array : Option (Reader α)) (other : Reader α) : Reader α := fun s =>
  match first? s with
  | none => .error .endInValue
  | some (b, t) =>
    if b = openBracket then
      match array with
      | none => .error .tooDeep
      | some array => (array t.1).map fun (a, r) => (a, t.trans r)
    else other s

end Ucan.Json.Reader
