import Ucan.Ascii

/-!
Bytes below 128 are the UTF-8 form of the text with one character for each of them.
-/

set_option autoImplicit false

namespace Ucan

theorem utf8_ofList (cs : List Char) : utf8 (String.ofList cs) = cs.flatMap String.utf8EncodeChar := by
  simp [utf8, List.utf8Encode]

theorem toNat_ofNat {x : UInt8} (ascii : x < 128) : (Char.ofNat x.toNat).toNat = x.toNat := by
  have small : x.toNat < 128 := UInt8.lt_iff_toNat_lt.mp ascii
  have valid : x.toNat.isValidChar := Or.inl (by omega)
  rw [Char.ofNat, dif_pos valid]
  rfl

theorem utf8EncodeChar_ofNat {x : UInt8} (ascii : x < 128) :
    String.utf8EncodeChar (Char.ofNat x.toNat) = [x] := by
  have small : x.toNat < 128 := UInt8.lt_iff_toNat_lt.mp ascii
  have value : (Char.ofNat x.toNat).val.toNat = x.toNat := toNat_ofNat ascii
  simp [String.utf8EncodeChar, value, show x.toNat ≤ 127 by omega]

theorem utf8_ofAscii {b : Bytes} (ascii : ∀ x ∈ b, x < 128) : utf8 (ofAscii b) = b := by
  rw [ofAscii, utf8_ofList]
  induction b with
  | nil => rfl
  | cons x rest ih =>
    have later := ih fun other member => ascii other (by simp [member])
    simp [utf8EncodeChar_ofNat (ascii x (by simp)), later]

theorem toList_ofAscii (b : Bytes) : (ofAscii b).toList = b.map fun x => Char.ofNat x.toNat := by
  simp [ofAscii]

theorem ofAscii_append (a b : Bytes) : ofAscii (a ++ b) = ofAscii a ++ ofAscii b := by
  simp [ofAscii]

theorem ofAscii_dot : ofAscii [Ascii.dot] = "." := by decide

theorem dot_not_mem_ofAscii {b : Bytes} (plain : ∀ x ∈ b, x < 128 ∧ x ≠ Ascii.dot) :
    '.' ∉ (ofAscii b).toList := by
  rw [toList_ofAscii]
  intro member
  obtain ⟨x, inside, same⟩ := List.mem_map.mp member
  obtain ⟨ascii, other⟩ := plain x inside
  have value := toNat_ofNat ascii
  rw [same] at value
  exact other (UInt8.toNat_inj.mp value.symm)

end Ucan
