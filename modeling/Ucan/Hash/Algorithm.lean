import Ucan.Hash.Sha2
import Ucan.Hash.Keccak
import Ucan.Hash.Blake3

/-!
The hash functions that content identifiers are made with, by their names and their multihash codes.
-/

set_option autoImplicit false

namespace Ucan

inductive HashAlgorithm where
  | sha2_256
  | sha2_512
  | sha3_224
  | sha3_256
  | sha3_384
  | sha3_512
  | keccak224
  | keccak256
  | keccak384
  | keccak512
  | blake2b256
  | blake2b512
  | blake2s128
  | blake2s256
  | blake3_256
  deriving DecidableEq

namespace HashAlgorithm

/-- The one that is used when none is named. -/
def standard : HashAlgorithm := sha2_256

def all : List HashAlgorithm :=
  [sha2_256, sha2_512, sha3_224, sha3_256, sha3_384, sha3_512, keccak224, keccak256, keccak384,
    keccak512, blake2b256, blake2b512, blake2s128, blake2s256, blake3_256]

theorem mem_all (h : HashAlgorithm) : h ∈ all := by cases h <;> decide

def name : HashAlgorithm → String
  | sha2_256 => "SHA2-256"
  | sha2_512 => "SHA2-512"
  | sha3_224 => "SHA3-224"
  | sha3_256 => "SHA3-256"
  | sha3_384 => "SHA3-384"
  | sha3_512 => "SHA3-512"
  | keccak224 => "Keccak-224"
  | keccak256 => "Keccak-256"
  | keccak384 => "Keccak-384"
  | keccak512 => "Keccak-512"
  | blake2b256 => "BLAKE2b-256"
  | blake2b512 => "BLAKE2b-512"
  | blake2s128 => "BLAKE2s-128"
  | blake2s256 => "BLAKE2s-256"
  | blake3_256 => "BLAKE3-256"

def code : HashAlgorithm → UInt64
  | sha2_256 => 0x12
  | sha2_512 => 0x13
  | sha3_224 => 0x17
  | sha3_256 => 0x16
  | sha3_384 => 0x15
  | sha3_512 => 0x14
  | keccak224 => 0x1A
  | keccak256 => 0x1B
  | keccak384 => 0x1C
  | keccak512 => 0x1D
  | blake2b256 => 0xB220
  | blake2b512 => 0xB240
  | blake2s128 => 0xB250
  | blake2s256 => 0xB260
  | blake3_256 => 0x1E

def ofName? (name : String) : Option HashAlgorithm := all.find? (·.name == name)

def ofCode? (code : UInt64) : Option HashAlgorithm := all.find? (·.code == code)

@[simp] theorem ofName?_name (h : HashAlgorithm) : ofName? h.name = some h := by
  cases h <;> decide

@[simp] theorem ofCode?_code (h : HashAlgorithm) : ofCode? h.code = some h := by
  cases h <;> decide

structure Unsupported where
  name : String
  deriving DecidableEq

def Unsupported.message (e : Unsupported) : String := "unsupported hash algorithm: " ++ e.name

def parse (name : String) : Except Unsupported HashAlgorithm :=
  match ofName? name with
  | some h => .ok h
  | none => .error ⟨name⟩

def digest : HashAlgorithm → Bytes → Bytes
  | sha2_256 => sha256
  | sha2_512 => sha512
  | sha3_224 => sha3 28
  | sha3_256 => sha3 32
  | sha3_384 => sha3 48
  | sha3_512 => sha3 64
  | keccak224 => keccak 28
  | keccak256 => keccak 32
  | keccak384 => keccak 48
  | keccak512 => keccak 64
  | blake2b256 => blake2b 32
  | blake2b512 => blake2b 64
  | blake2s128 => blake2s 16
  | blake2s256 => blake2s 32
  | blake3_256 => blake3

theorem length_digest_le (h : HashAlgorithm) (message : Bytes) :
    (h.digest message).length ≤ 64 := by
  cases h <;> simp [digest, sha3, keccak]

end HashAlgorithm

end Ucan
