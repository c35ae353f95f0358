import Ucan.Proofs.Base58
import Ucan.Proofs.Did

/-!
The texts that are read as identifiers are those that well-formed identifiers are written as, each
of them in one way.
-/

set_option autoImplicit false

namespace Ucan

namespace PublicKey

variable {key : PublicKey} {text : String}

theorem present_iff : key.Present ↔ key ≠ .rsa [] := by
  cases key <;> simp [Present, keyType, bytes]

theorem codec_of_ofCodec? {codec : UInt8 × UInt8} {type : KeyType}
    (known : KeyType.ofCodec? codec = some type) : type.codec = codec := by
  simpa using List.find?_some known

/-- A key is read from no other text than its own. -/
theorem multibase_of_ofMultibase (read : ofMultibase text = .ok key) : key.multibase = text := by
  unfold ofMultibase at read
  repeat' split at read
  all_goals cases read
  next base _ btc _ first second rest decoded _ type known _ _ found =>
    have ⟨same, bytes⟩ := of_ofBytes? found
    have codec : key.keyType.codec = (first, second) := by rw [same, codec_of_ofCodec? known]
    rw [Decidable.not_not.mp btc] at decoded
    rw [multibase, codec, bytes]
    exact Multibase.encodeBase58_of_decode? decoded

end PublicKey

namespace Did

variable {text : String} {d e : Did} {method identifier : List Char}

def WellFormed : Did → Prop
  | key k => k ≠ .rsa []
  | other method identifier =>
    method ≠ "" ∧ (∀ c ∈ method.toList, ('a' ≤ c ∧ c ≤ 'z') ∨ ('0' ≤ c ∧ c ≤ '9')) ∧
      method ≠ "key" ∧ identifier ≠ "" ∧ identifier.toList.getLast? ≠ some ':'

theorem isMethodChar_iff {c : Char} :
    isMethodChar c = true ↔ ('a' ≤ c ∧ c ≤ 'z') ∨ ('0' ≤ c ∧ c ≤ '9') := by
  simp [isMethodChar]

theorem colon_not_mem_of_all (lowercase : method.all isMethodChar = true) : ':' ∉ method := by
  intro colon
  exact absurd (List.all_eq_true.mp lowercase ':' colon) (by decide)

/-- The parts that a text was split into when it was read, and what was made of them. -/
structure Parts (text : String) (method identifier : List Char) : Prop where
  chars : text.toList = 'd' :: 'i' :: 'd' :: ':' :: (method ++ ':' :: identifier)
  named : method ≠ []
  lowercase : method.all isMethodChar = true
  nonempty : identifier ≠ []
  ending : identifier.getLast? ≠ some ':'

theorem Parts.parse_eq (parts : Parts text method identifier) :
    parse text = if method = "key".toList then
      (PublicKey.ofMultibase (String.ofList identifier)).map key
    else .ok (other (String.ofList method) (String.ofList identifier)) := by
  have split := splitColon?_append identifier (colon_not_mem_of_all parts.lowercase)
  have proper : ¬(method = [] ∨ ¬method.all isMethodChar = true) := by
    simp [parts.named, parts.lowercase]
  have ended : ¬(identifier.getLast? = none ∨ identifier.getLast? = some ':') := by
    simp [parts.nonempty, parts.ending]
  rw [parse, parts.chars, parseChars, split]
  simp only [proper, ended, if_false]
  rfl

theorem exists_parts (read : parse text = .ok d) :
    ∃ method identifier, Parts text method identifier := by
  unfold parse parseChars at read
  split at read
  next rest chars =>
    split at read
    next => cases read
    next method identifier found =>
      split at read
      next => cases read
      next proper =>
        split at read
        next => cases read
        next ended =>
          rw [not_or, Decidable.not_not] at proper
          rw [not_or, List.getLast?_eq_none_iff] at ended
          exact ⟨method, identifier, by rw [chars, append_of_splitColon? found], proper.1, proper.2,
            ended.1, ended.2⟩
  next => cases read

theorem toString_key_toList (k : PublicKey) : (key k).toString.toList =
    'd' :: 'i' :: 'd' :: ':' :: ("key".toList ++ ':' :: k.multibase.toList) := by
  simp [toString]

theorem toString_other_toList (method identifier : String) :
    (other method identifier).toString.toList =
      'd' :: 'i' :: 'd' :: ':' :: (method.toList ++ ':' :: identifier.toList) := by
  simp [toString]

theorem toString_of_parse (read : parse text = .ok d) : d.toString = text := by
  have ⟨method, identifier, parts⟩ := exists_parts read
  apply String.toList_inj.mp
  rw [parts.parse_eq] at read
  split at read
  next isKey =>
    have ⟨k, found, made⟩ := map_eq_ok.mp read
    have multibase := PublicKey.multibase_of_ofMultibase found
    rw [← made, toString_key_toList, multibase, String.toList_ofList (l := identifier), parts.chars,
      isKey]
  next =>
    cases read
    rw [toString_other_toList, String.toList_ofList, String.toList_ofList, parts.chars]

theorem wellFormed_of_parse (read : parse text = .ok d) : d.WellFormed := by
  have ⟨method, identifier, parts⟩ := exists_parts read
  rw [parts.parse_eq] at read
  split at read
  next =>
    have ⟨k, found, made⟩ := map_eq_ok.mp read
    rw [← made]
    exact PublicKey.present_iff.mp (PublicKey.present_of_ofMultibase found)
  next isOther =>
    cases read
    have each := List.all_eq_true.mp parts.lowercase
    simp only [isMethodChar_iff] at each
    simp only [WellFormed, ne_eq, ← String.toList_inj, String.toList_ofList]
    exact ⟨parts.named, each, isOther, parts.nonempty, parts.ending⟩

theorem WellFormed.readable (proper : d.WellFormed) : d.Readable := by
  cases d with
  | key k => exact readable_key (PublicKey.present_iff.mpr proper)
  | other method identifier =>
    have ⟨named, each, isOther, nonempty, ending⟩ := proper
    simp only [ne_eq, ← String.toList_inj] at named isOther nonempty
    have lowercase : method.toList.all isMethodChar = true :=
      List.all_eq_true.mpr fun c member => isMethodChar_iff.mpr (each c member)
    have parts : Parts (other method identifier).toString method.toList identifier.toList :=
      ⟨toString_other_toList method identifier, named, lowercase, nonempty, ending⟩
    rw [Readable, parts.parse_eq, if_neg isOther, String.ofList_toList, String.ofList_toList]

theorem parse_eq_ok_iff : parse text = .ok d ↔ d.toString = text ∧ d.WellFormed := by
  constructor
  next => exact fun read => ⟨toString_of_parse read, wellFormed_of_parse read⟩
  next =>
    intro written
    rw [← written.1]
    exact written.2.readable

theorem WellFormed.eq_iff (proper : d.WellFormed) (otherProper : e.WellFormed) :
    d = e ↔ d.toString = e.toString := by
  constructor
  next => exact congrArg toString
  next =>
    intro same
    have read := proper.readable
    rw [Readable, same, otherProper.readable] at read
    exact (Except.ok.inj read).symm

end Did

end Ucan
