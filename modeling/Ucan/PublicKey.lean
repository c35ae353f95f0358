import Ucan.Encoding.Multibase

/-!
Public keys, and the text that a `did:key` identifier holds for each.
-/

set_option autoImplicit false

namespace Ucan

inductive KeyType where
  | ed25519
  | secp256k1
  | p256
  | rsa
  deriving DecidableEq

def KeyType.name : KeyType → String
  | ed25519 => "ed25519"
  | secp256k1 => "secp256k1"
  | p256 => "p256"
  | rsa => "rsa"

/-- Elliptic curve keys are compressed points, RSA keys are PKCS#1 documents. -/
inductive PublicKey where
  | ed25519 (point : { b : Bytes // b.length = 32 })
  | secp256k1 (point : { b : Bytes // b.length = 33 })
  | p256 (point : { b : Bytes // b.length = 33 })
  | rsa (document : Bytes)
  deriving DecidableEq

inductive Did.Error where
  | noDid
  | noMethod
  | invalidMethod (method : String)
  | invalidIdentifier
  | multibase
  | unsupportedMultibase
  | unsupportedMulticodec
  | invalidKeyLength
  deriving DecidableEq

def Did.Error.message : Did.Error → String
  | noDid => "not a valid Did prefix"
  | noMethod => "no Did method"
  | invalidMethod method => "invalid Did method: " ++ method
  | invalidIdentifier => "invalid Did method specific identifier"
  | multibase => "invalid multibase encoding"
  | unsupportedMultibase => "unsupported multibase encoding, expected base58btc"
  | unsupportedMulticodec =>
    "unsupported multicodec, expected one of ed25519-pub, secp256k1-pub, p256-pub, rsa-pub"
  | invalidKeyLength => "invalid public key length"

namespace PublicKey

def keyType : PublicKey → KeyType
  | ed25519 _ => .ed25519
  | secp256k1 _ => .secp256k1
  | p256 _ => .p256
  | rsa _ => .rsa

def bytes : PublicKey → Bytes
  | ed25519 point => point.1
  | secp256k1 point => point.1
  | p256 point => point.1
  | rsa document => document

/-- The key of that type, if the bytes have a length that it can have. -/
def ofBytes? (type : KeyType) (b : Bytes) : Option PublicKey :=
  match type with
  | .ed25519 => if h : b.length = 32 then some (.ed25519 ⟨b, h⟩) else none
  | .secp256k1 => if h : b.length = 33 then some (.secp256k1 ⟨b, h⟩) else none
  | .p256 => if h : b.length = 33 then some (.p256 ⟨b, h⟩) else none
  | .rsa => some (.rsa b)

theorem ofBytes?_bytes (key : PublicKey) : ofBytes? key.keyType key.bytes = some key := by
  cases key with
  | rsa document => rfl
  | ed25519 point | secp256k1 point | p256 point => simp [ofBytes?, keyType, bytes, point.2]

theorem of_ofBytes? {type : KeyType} {b : Bytes} {key : PublicKey}
    (h : ofBytes? type b = some key) : key.keyType = type ∧ key.bytes = b := by
  cases type <;> simp only [ofBytes?] at h <;> (try split at h) <;>
    cases h <;> exact ⟨rfl, rfl⟩

end PublicKey

/-- The multicodec of the key type, as the two bytes it is written with. -/
def KeyType.codec : KeyType → UInt8 × UInt8
  | ed25519 => (0xED, 0x01)
  | secp256k1 => (0xE7, 0x01)
  | p256 => (0x80, 0x24)
  | rsa => (0x85, 0x24)

def KeyType.all : List KeyType := [ed25519, secp256k1, p256, rsa]

def KeyType.ofCodec? (codec : UInt8 × UInt8) : Option KeyType := all.find? (·.codec == codec)

@[simp] theorem KeyType.ofCodec?_codec (type : KeyType) : ofCodec? type.codec = some type := by
  cases type <;> decide

namespace PublicKey

def multibase (key : PublicKey) : String :=
  Multibase.encodeBase58 (key.keyType.codec.1 :: key.keyType.codec.2 :: key.bytes)

/-- Reads a key back; an RSA key has to hold something. -/
def ofMultibase (text : String) : Except Did.Error PublicKey :=
  match Multibase.decode? text with
  | none => .error .multibase
  | some (base, b) =>
    if base ≠ .base58Btc then .error .unsupportedMultibase
    else match b with
      | c :: d :: key =>
        match KeyType.ofCodec? (c, d) with
        | none => .error .unsupportedMulticodec
        | some type =>
          if type = .rsa ∧ key = [] then .error .invalidKeyLength
          else match ofBytes? type key with
            | some key => .ok key
            | none => .error .invalidKeyLength
      | _ => .error .unsupportedMulticodec

/-- The type and the text of the key, as messages show it. -/
def describe (key : PublicKey) : String :=
  key.keyType.name ++ "(" ++ key.multibase ++ ")"

end PublicKey

end Ucan
