import Ucan.PublicKey

/-!
What a signature scheme consists of: how its keys and signatures are written, what is signed how, and
which signatures are accepted.
-/

set_option autoImplicit false

namespace Ucan

structure SignatureScheme where
  -- A secret key.
  Secret : Type
  -- A public key in a form that can be reckoned with.
  Key : Type
  -- A signature whose parts are in range.
  Signature : Type
  -- The secret key that the bytes stand for, if there is one.
  secret? : Bytes → Option Secret
  publicKey : Secret → PublicKey
  key? : Bytes → Option Key
  signature? : Bytes → Option Signature
  -- The key accepts this as its signature of the message.
  accepts : Key → Bytes → Signature → Bool
  -- The signature of a message, or why there is none.
  sign : Secret → Bytes → Except String Bytes

end Ucan
