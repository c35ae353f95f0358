import Ucan.Hash.Sha2

/-!
The keyed hash HMAC over SHA-256.
-/

set_option autoImplicit false

namespace Ucan

def hmacBlock : Nat := 64

/-- A key of the length of a block: longer keys are hashed, shorter ones filled up with zeros. -/
def hmacKey (key : Bytes) : Bytes :=
  let key := if hmacBlock < key.length then sha256 key else key
  key ++ List.replicate (hmacBlock - key.length) 0

def hmac (key message : Bytes) : Bytes :=
  let key := hmacKey key
  sha256 (key.map (· ^^^ 0x5C) ++ sha256 (key.map (· ^^^ 0x36) ++ message))

end Ucan
