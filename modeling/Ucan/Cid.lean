import Ucan.Encoding.Multibase
import Ucan.Encoding.Varint
import Ucan.Hash.Algorithm

/-!
Content identifiers of version 1: what kind of content, under which hash function, with which
digest. They are written in base32 and read in any base.
-/

set_option autoImplicit false

namespace Ucan

structure Cid where
  codec : UInt64
  hashCode : UInt64
  digest : Bytes
  deriving DecidableEq

namespace Cid

/-- The codec of raw bytes. -/
def raw : UInt64 := 0x55

def version : Nat := 1

def maxDigest : Nat := 64

def bytes (cid : Cid) : Bytes :=
  Varint.encode version ++ Varint.encode cid.codec.toNat ++ Varint.encode cid.hashCode.toNat ++
    Varint.encode cid.digest.length ++ cid.digest

def toString (cid : Cid) : String := Multibase.encodeBase32 cid.bytes

instance : ToString Cid := ⟨toString⟩

/-- Bytes after the digest are not looked at. -/
def ofBytes? (s : Bytes) : Option Cid := do
  let (v, s) ← Varint.decode? s
  let (codec, s) ← Varint.decode? s
  if v ≠ version.toUInt64 then none
  else
    let (hashCode, s) ← Varint.decode? s
    let (size, s) ← Varint.decode? s
    if maxDigest < size.toNat ∨ s.length < size.toNat then none
    else some ⟨codec, hashCode, s.take size.toNat⟩

/-- What follows the first place where the mark stands. -/
def after? (mark : List Char) : List Char → Option (List Char)
  | [] => if mark.isEmpty then some [] else none
  | c :: text =>
    if mark.isPrefixOf (c :: text) then some ((c :: text).drop mark.length) else after? mark text

/-- The identifier of version 0 form, which names no raw bytes. -/
def isVersion0 (text : String) : Bool := text.utf8ByteSize == 46 && text.startsWith "Qm"

/-- A path is read by what follows its first `/ipfs/`. -/
def parse? (text : String) : Option Cid := do
  let text := (after? "/ipfs/".toList text.toList).elim text String.ofList
  if text.utf8ByteSize < 2 ∨ isVersion0 text then none
  else
    let (_, bytes) ← Multibase.decode? text
    ofBytes? bytes

def hasher? (cid : Cid) : Option HashAlgorithm := HashAlgorithm.ofCode? cid.hashCode

end Cid

def HashAlgorithm.cid (h : HashAlgorithm) (content : Bytes) : Cid :=
  ⟨Cid.raw, h.code, h.digest content⟩

@[simp] theorem HashAlgorithm.hasher?_cid (h : HashAlgorithm) (content : Bytes) :
    (h.cid content).hasher? = some h := by
  simp [Cid.hasher?, HashAlgorithm.cid]

end Ucan
