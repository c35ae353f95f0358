import Ucan.Proof.Reference
import Ucan.Proofs.Encoding

/-!
Content identifiers come back from their bytes and from their text, and the text of one that a token
has refers to it.
-/

set_option autoImplicit false

namespace Ucan

namespace Varint

variable {left n read : Nat} {rest : Bytes}

theorem decodeFrom?_last (single : n < 128) (nonzero : left = 9 ∨ n ≠ 0) :
    decodeFrom? read (left + 1) (UInt8.ofNat n :: rest) =
      some ((read + n <<< (7 * (9 - left))).toUInt64, rest) := by
  have byte : (UInt8.ofNat n).toNat = n := UInt8.toNat_ofNat_of_lt (by omega : n < 256)
  have last : UInt8.ofNat n < 128 := UInt8.lt_iff_toNat_lt.mpr (by rw [byte]; exact single)
  have used : ¬(UInt8.ofNat n = 0 ∧ left ≠ 9) := by
    rintro ⟨zero, front⟩
    have := congrArg UInt8.toNat zero
    rw [byte] at this
    exact nonzero.resolve_left front this
  simp only [decodeFrom?, byte, Nat.mod_eq_of_lt single, last, used, if_true, if_false]

theorem decodeFrom?_more :
    decodeFrom? read (left + 1) (UInt8.ofNat (n % 128 + 128) :: rest) =
      decodeFrom? (read + (n % 128) <<< (7 * (9 - left))) left rest := by
  have byte : (UInt8.ofNat (n % 128 + 128)).toNat = n % 128 + 128 :=
    UInt8.toNat_ofNat_of_lt (by omega : n % 128 + 128 < 256)
  have more : ¬UInt8.ofNat (n % 128 + 128) < 128 := by
    rw [UInt8.lt_iff_toNat_lt, byte]
    exact Nat.not_lt.mpr (Nat.le_add_left 128 _)
  have group : (n % 128 + 128) % 128 = n % 128 := by omega
  simp only [decodeFrom?, byte, group, more, if_false]

/-- A number is added to what was read before, at the place of the group that comes next. -/
theorem decodeFrom?_encode (few : left ≤ 9) (small : n < 1 <<< (7 * (left + 1)))
    (nonzero : left = 9 ∨ n ≠ 0) :
    decodeFrom? read (left + 1) (encode n ++ rest) =
      some ((read + n <<< (7 * (9 - left))).toUInt64, rest) := by
  induction left generalizing n read with
  | zero =>
    have single : n < 128 := small
    rw [encode, if_pos single]
    exact decodeFrom?_last single nonzero
  | succ left ih =>
    rw [encode]
    by_cases single : n < 128
    · rw [if_pos single]
      exact decodeFrom?_last single nonzero
    · have above : n / 128 < 1 <<< (7 * (left + 1)) := by
        rw [Nat.mul_add 7 (left + 1), Nat.shiftLeft_add, Nat.shiftLeft_eq _ (7 * 1)] at small
        omega
      have groups : n % 128 + (n / 128) <<< 7 = n := by
        rw [Nat.shiftLeft_eq]
        exact Nat.mod_add_div' n 128
      have place : 7 * (9 - left) = 7 + 7 * (9 - (left + 1)) := by omega
      rw [if_neg single, List.cons_append, decodeFrom?_more, ih (by omega) above (.inr (by omega)),
        place, Nat.shiftLeft_add, Nat.add_assoc, Nat.shiftLeft_eq (n % 128),
        Nat.shiftLeft_eq _ (7 * (9 - (left + 1))), ← Nat.add_mul, groups,
        Nat.shiftLeft_eq n]

theorem encode_ne_nil (n : Nat) : encode n ≠ [] := by
  rw [encode]
  split <;> simp

theorem decode?_encode (small : n < UInt64.size) :
    decode? (encode n ++ rest) = some (n.toUInt64, rest) := by
  have bits : n < 1 <<< (7 * (9 + 1)) := Nat.lt_trans small (by decide)
  rw [decode?, decodeFrom?_encode (Nat.le_refl 9) bits (.inl rfl), Nat.zero_add]
  rfl

theorem decode?_encode_toNat (x : UInt64) (rest : Bytes) :
    decode? (encode x.toNat ++ rest) = some (x, rest) := by
  rw [decode?_encode x.toNat_lt, Nat.toUInt64_eq, UInt64.ofNat_toNat]

end Varint

namespace Cid

variable {id : Cid}

theorem ofBytes?_bytes (short : id.digest.length ≤ maxDigest) : ofBytes? id.bytes = some id := by
  have size : id.digest.length.toUInt64.toNat = id.digest.length :=
    UInt64.toNat_ofNat_of_lt (Nat.lt_of_le_of_lt short (by decide))
  have fits : ¬(maxDigest < id.digest.length ∨ id.digest.length < id.digest.length) := by omega
  have length : id.digest.length < UInt64.size := Nat.lt_of_le_of_lt short (by decide)
  simp only [ofBytes?, bytes, List.append_assoc, Varint.decode?_encode_toNat,
    Varint.decode?_encode (by decide : version < UInt64.size), Varint.decode?_encode length, bind,
    Option.bind, size, fits, List.take_length, if_false, ne_eq, not_true]

theorem after?_of_not_mem {c : Char} {mark text : List Char} (absent : c ∉ text) :
    after? (c :: mark) text = none := by
  induction text with
  | nil => rfl
  | cons d text ih =>
    rw [List.mem_cons, not_or] at absent
    simp [after?, absent.1, ih absent.2]

theorem bytes_ne_nil (id : Cid) : id.bytes ≠ [] := by
  simp [bytes, Varint.encode_ne_nil]

theorem mem_toString {c : Char} (member : c ∈ id.toString.toList) :
    c ∈ Multibase.Base.base32.alphabet :=
  Multibase.mem_encodeBase32 member

theorem two_le_size_toString (id : Cid) : 2 ≤ id.toString.utf8ByteSize := by
  have digits : (BitGroups.encode 5 id.bytes).length ≠ 0 := by
    have := List.length_pos_iff.mpr (bytes_ne_nil id)
    rw [BitGroups.encode, BitGroups.length_digits]
    omega
  cases written : BitGroups.encode 5 id.bytes with
  | nil => simp [written] at digits
  | cons d rest =>
    have first := Char.utf8Size_pos Multibase.Base.base32.code
    have second := Char.utf8Size_pos (Multibase.symbolAt Multibase.Base.base32.alphabet d)
    simp only [toString, Multibase.encodeBase32, written, List.map_cons, String.ofList_cons,
      String.utf8ByteSize_append, String.utf8ByteSize_singleton]
    omega

theorem parse?_toString (short : id.digest.length ≤ maxDigest) : parse? id.toString = some id := by
  have path : after? "/ipfs/".toList id.toString.toList = none :=
    after?_of_not_mem fun slash => absurd (mem_toString slash) (by decide)
  have isLong : ¬id.toString.utf8ByteSize < 2 := Nat.not_lt.mpr (two_le_size_toString id)
  -- No capital letter is written, so that it is not taken for the first version's text.
  have plain : ¬isVersion0 id.toString = true := by
    intro version0
    simp only [isVersion0, Bool.and_eq_true, String.startsWith_string_iff] at version0
    have capital : 'Q' ∈ Multibase.Base.base32.alphabet :=
      mem_toString (version0.2.subset (by decide))
    exact absurd capital (by decide)
  have read : Multibase.decode? id.toString = some (.base32, id.bytes) :=
    Multibase.decode?_encodeBase32 id.bytes
  simp only [parse?, path, Option.elim_none, isLong, plain, read, bind, Option.bind]
  exact ofBytes?_bytes short

theorem toString_injective {other : Cid} (short : id.digest.length ≤ maxDigest)
    (otherShort : other.digest.length ≤ maxDigest) (same : id.toString = other.toString) :
    id = other := by
  have read := parse?_toString short
  rw [same, parse?_toString otherShort] at read
  exact (Option.some.inj read).symm

end Cid

theorem ProofReference.parse_toString {id : Cid} (short : id.digest.length ≤ Cid.maxDigest)
    (raw : id.codec = Cid.raw) : parse id.toString = .ok (.cid id) := by
  have plain : '.' ∉ id.toString.toList := fun dot => absurd (Cid.mem_toString dot) (by decide)
  rw [parse, if_neg plain, Cid.parse?_toString short]
  exact if_pos raw

theorem Token.length_digest_cid (t : Token) (h : HashAlgorithm) :
    (t.cid h).digest.length ≤ Cid.maxDigest :=
  h.length_digest_le t.wire.bytes

theorem Token.parse_toString_cid (t : Token) (h : HashAlgorithm) :
    ProofReference.parse (t.cid h).toString = .ok (.cid (t.cid h)) :=
  ProofReference.parse_toString (t.length_digest_cid h) rfl

end Ucan
