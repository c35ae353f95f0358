/-!
Byte strings, their numbers in base 256, and the UTF-8 form of text.
-/

set_option autoImplicit false

namespace Ucan

abbrev Bytes := List UInt8

namespace Bytes

/-- The number written by the bytes, most significant first. -/
def toNat (b : Bytes) : Nat := b.foldl (fun n x => 256 * n + x.toNat) 0

/-- The last `len` digits of a number in base 256, most significant first. -/
def ofNat : Nat → Nat → Bytes
  | 0, _ => []
  | len + 1, n => ofNat len (n / 256) ++ [UInt8.ofNat n]

@[simp] theorem length_ofNat (len n : Nat) : (ofNat len n).length = len := by
  induction len generalizing n with
  | zero => rfl
  | succ len ih => simp [ofNat, ih]

theorem toNat_append_singleton (b : Bytes) (x : UInt8) :
    toNat (b ++ [x]) = 256 * toNat b + x.toNat := by
  simp [toNat, List.foldl_append]

theorem toNat_ofNat (len n : Nat) : toNat (ofNat len n) = n % Nat.pow 256 len := by
  induction len generalizing n with
  | zero => simp [ofNat, toNat, Nat.mod_one]
  | succ len ih =>
    simp only [Nat.pow_eq] at ih ⊢
    rw [ofNat, toNat_append_singleton, ih, Nat.pow_succ', Nat.mod_mul]
    simp [UInt8.toNat_ofNat']
    omega

/-- The number written by the bytes, least significant first. -/
def toNatLE (b : Bytes) : Nat := toNat b.reverse

/-- The last `len` digits of a number in base 256, least significant first. -/
def ofNatLE (len n : Nat) : Bytes := (ofNat len n).reverse

theorem toNatLE_ofNatLE (len n : Nat) : toNatLE (ofNatLE len n) = n % Nat.pow 256 len := by
  simp [toNatLE, ofNatLE, toNat_ofNat]

/-- The shortest bytes that write a number; zero needs none. -/
def ofNatMin (n : Nat) : Bytes :=
  ofNat ((n.log2 + 8) / 8) n |>.dropWhile (· == 0)

/-- Pieces of `size` bytes, the last one perhaps shorter. -/
def chunks (size : Nat) (b : Bytes) : List Bytes :=
  if _ : size = 0 ∨ b = [] then [] else b.take size :: chunks size (b.drop size)
termination_by b.length
decreasing_by
  have : b.length ≠ 0 := by simp_all
  simp only [List.length_drop]
  omega

end Bytes

def utf8 (s : String) : Bytes := s.toByteArray.data.toList

def ofUtf8? (b : Bytes) : Option String := String.fromUTF8? ⟨b.toArray⟩

@[simp] theorem ofUtf8?_utf8 (s : String) : ofUtf8? (utf8 s) = some s := by
  have h : (⟨(utf8 s).toArray⟩ : ByteArray) = s.toByteArray := by simp [utf8]
  rw [ofUtf8?, h, String.fromUTF8?]
  simp [s.isValidUTF8, String.fromUTF8]

theorem utf8_injective {s t : String} (h : utf8 s = utf8 t) : s = t := by
  have : some s = some t := by rw [← ofUtf8?_utf8 s, ← ofUtf8?_utf8 t, h]
  simpa using this

theorem utf8_of_ofUtf8? {b : Bytes} {s : String} (h : ofUtf8? b = some s) : utf8 s = b := by
  unfold ofUtf8? String.fromUTF8? at h
  split at h
  · cases h; simp [utf8, String.fromUTF8]
  · cases h

/-- The text with one character for each byte; the UTF-8 form of the result is the bytes
themselves when all are ASCII. -/
def ofAscii (b : Bytes) : String := String.ofList (b.map fun x => Char.ofNat x.toNat)

end Ucan
