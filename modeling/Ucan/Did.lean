import Ucan.PublicKey

/-!
Decentralised identifiers: of the `key` method, which hold a public key, and of any other, which are
kept as they are.
-/

set_option autoImplicit false

namespace Ucan

inductive Did where
  | key (key : PublicKey)
  | other (method identifier : String)
  deriving DecidableEq

namespace Did

def publicKey? : Did → Option PublicKey
  | key k => some k
  | other .. => none

def method : Did → String
  | key _ => "key"
  | other method _ => method

def toString : Did → String
  | key k => "did:key:" ++ k.multibase
  | other method identifier => "did:" ++ method ++ ":" ++ identifier

instance : ToString Did := ⟨toString⟩

def splitColon? : List Char → Option (List Char × List Char)
  | [] => none
  | c :: rest =>
    if c = ':' then some ([], rest)
    else (splitColon? rest).map fun (before, after) => (c :: before, after)

def isMethodChar (c : Char) : Bool := ('a' ≤ c && c ≤ 'z') || ('0' ≤ c && c ≤ '9')

def parseChars : List Char → Except Error Did
  | 'd' :: 'i' :: 'd' :: ':' :: rest =>
    match splitColon? rest with
    | none => .error .noMethod
    | some (method, identifier) =>
      if method = [] ∨ ¬method.all isMethodChar then
        .error (.invalidMethod (String.ofList method))
      else if identifier.getLast? = none ∨ identifier.getLast? = some ':' then
        .error .invalidIdentifier
      else if method = ['k', 'e', 'y'] then
        (PublicKey.ofMultibase (String.ofList identifier)).map key
      else .ok (.other (String.ofList method) (String.ofList identifier))
  | _ => .error .noDid

/-- The method is lowercase letters and digits, and the identifier does not end in a colon. -/
def parse (text : String) : Except Error Did := parseChars text.toList

end Did

end Ucan
