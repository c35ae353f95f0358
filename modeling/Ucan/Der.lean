import Ucan.Bytes

/-!
Documents in the distinguished encoding rules: elements of a tag, a length and as many bytes. Each
has one written form.
-/

set_option autoImplicit false

namespace Ucan.Der

def tagInteger : UInt8 := 0x02
def tagBitString : UInt8 := 0x03
def tagOctetString : UInt8 := 0x04
def tagNull : UInt8 := 0x05
def tagObjectIdentifier : UInt8 := 0x06
def tagSequence : UInt8 := 0x30

/-- A tag whose meaning is given by what it stands in. -/
def isContextTag (tag : UInt8) : Bool := tag &&& 0xC0 == 0x80

def isConstructed (tag : UInt8) : Bool := tag &&& 0x20 != 0

def tagNumber (tag : UInt8) : UInt8 := tag &&& 0x1F

def universalTags : List UInt8 :=
  [0x01, 0x02, 0x03, 0x04, 0x05, 0x06, 0x09, 0x0A, 0x0C, 0x12, 0x13, 0x14, 0x15, 0x16, 0x17, 0x18,
    0x1A, 0x1E, 0x30, 0x31]

/-- Tags of one byte, and of those without other meaning only the known ones. -/
def isTag (tag : UInt8) : Bool :=
  if tag < 0x40 then universalTags.contains tag else tagNumber tag != 0x1F

def encodeLength (n : Nat) : Bytes :=
  if n < 0x80 then [UInt8.ofNat n]
  else
    let digits := Bytes.ofNatMin n
    UInt8.ofNat (0x80 + digits.length) :: digits

def encode (tag : UInt8) (content : Bytes) : Bytes := tag :: encodeLength content.length ++ content

/-- The length in front of the bytes, and the bytes. It has at most four digits, and no zero in
front of them. -/
def takeLength? : Bytes → Option (Nat × Bytes)
  | [] => none
  | n :: rest =>
    if n < 0x80 then some (n.toNat, rest)
    else
      let size := n.toNat - 0x80
      let length := Bytes.toNat (rest.take size)
      if size ≤ 4 ∧ size ≤ rest.length ∧ encodeLength length = n :: rest.take size then
        some (length, rest.drop size)
      else none

structure Element where
  tag : UInt8
  content : Bytes
  deriving DecidableEq

def take? : Bytes → Option (Element × Bytes)
  | [] => none
  | tag :: rest => do
    let (length, rest) ← takeLength? rest
    if isTag tag ∧ length ≤ rest.length then some (⟨tag, rest.take length⟩, rest.drop length)
    else none

theorem length_of_takeLength? {s rest : Bytes} {n : Nat} (h : takeLength? s = some (n, rest)) :
    rest.length < s.length := by
  cases s with
  | nil => simp [takeLength?] at h
  | cons b s =>
    simp only [takeLength?] at h
    split at h
    · simp only [Option.some.injEq, Prod.mk.injEq] at h
      simp [← h.2]
    · split at h
      · simp only [Option.some.injEq, Prod.mk.injEq] at h
        simp only [← h.2, List.length_drop, List.length_cons]
        omega
      · cases h

theorem length_of_take? {s rest : Bytes} {e : Element} (h : take? s = some (e, rest)) :
    rest.length < s.length := by
  cases s with
  | nil => simp [take?] at h
  | cons b s =>
    cases hs : takeLength? s with
    | none => simp [take?, hs] at h
    | some found =>
      obtain ⟨n, r⟩ := found
      have := length_of_takeLength? hs
      simp only [take?, hs, bind, Option.bind] at h
      split at h
      · cases h
        simp only [List.length_drop, List.length_cons]
        omega
      · cases h

def elements? (s : Bytes) : Option (List Element) :=
  if s = [] then some []
  else
    match _ : take? s with
    | none => none
    | some (e, rest) => (elements? rest).map (e :: ·)
termination_by s.length
decreasing_by exact length_of_take? ‹_›

/-- The content of the only element there is, if it has the tag. -/
def content? (tag : UInt8) (s : Bytes) : Option Bytes :=
  match elements? s with
  | some [e] => if e.tag = tag then some e.content else none
  | _ => none

def encodeNat (n : Nat) : Bytes :=
  let digits := Bytes.ofNatMin n
  encode tagInteger (if digits.head?.all (· < 0x80) && digits != [] then digits else 0 :: digits)

/-- The number that an integer element holds, unless it is negative. It has no zero in front that it
could do without. -/
def nat? (e : Element) : Option Nat :=
  if e.tag ≠ tagInteger then none
  else match e.content with
    | [] => none
    | [a] => if a < 0x80 then some a.toNat else none
    | a :: b :: rest =>
      if 0x80 ≤ a ∨ a = 0 ∧ b < 0x80 then none else some (Bytes.toNat (a :: b :: rest))

end Ucan.Der
