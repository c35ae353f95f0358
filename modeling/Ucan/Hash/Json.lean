import Ucan.Hash.Algorithm
import Ucan.Json.Reader

/-!
Hash functions in JSON: their names.
-/

set_option autoImplicit false

namespace Ucan.HashAlgorithm

def toJson (h : HashAlgorithm) : Json := .string h.name

open Json.Reader in
def reader : Json.Reader HashAlgorithm := textOf parse Unsupported.message

def parseJson (s : Bytes) : Except Json.Error HashAlgorithm := Json.Reader.parse reader s

end Ucan.HashAlgorithm
