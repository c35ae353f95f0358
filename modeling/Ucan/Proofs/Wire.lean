import Ucan.Proofs.Ascii
import Ucan.Proofs.Base64Url
import Ucan.Token

/-!
The wire form is exact: a text is accepted when it is what its parts are written as, so that the
signature and the identifiers of a token are over the text that was received.
-/

set_option autoImplicit false

namespace Ucan

namespace Wire

open Ascii

/-- No segment is written as nothing where something has to be, and an absent signature is not
taken for an empty one. -/
def Proper (w : Wire) : Prop := w.header ≠ [] ∧ w.payload ≠ [] ∧ w.signature ≠ some []

theorem bytes_eq_intercalate (w : Wire) :
    w.bytes = [dot].intercalate [Base64Url.encode w.header, Base64Url.encode w.payload,
      Base64Url.encode (w.signature.getD [])] := by
  simp [bytes, signedBytes, List.intercalate_cons_cons]

theorem splitOn_bytes (w : Wire) :
    w.bytes.splitOn dot = [Base64Url.encode w.header, Base64Url.encode w.payload,
      Base64Url.encode (w.signature.getD [])] := by
  rw [bytes_eq_intercalate]
  apply List.splitOn_intercalate
  · simp only [List.mem_cons, List.not_mem_nil, or_false]
    rintro segment (rfl | rfl | rfl) member <;>
      exact (Base64Url.ascii_of_mem_encode member).2.1 rfl
  · simp

theorem decodeSegment_eq_ok_iff {segment : Segment} {s b : Bytes} :
    decodeSegment segment s = .ok b ↔ Base64Url.encode b = s := by
  rw [← Base64Url.decode_eq_ok_iff, decodeSegment]
  cases Base64Url.decode s <;> simp

theorem decodeSegment_encode (segment : Segment) (b : Bytes) :
    decodeSegment segment (Base64Url.encode b) = .ok b :=
  decodeSegment_eq_ok_iff.mpr rfl

theorem ofBytes_bytes {w : Wire} (proper : w.Proper) : ofBytes w.bytes = .ok w := by
  obtain ⟨header, payload, signature⟩ := w
  obtain ⟨someHeader, somePayload, someSignature⟩ := proper
  simp only [ofBytes, splitOn_bytes, Base64Url.encode_eq_nil, decodeSegment_encode, someHeader,
    somePayload, if_false, bind, Except.bind]
  cases signature with
  | none => rfl
  | some b =>
    have present : b ≠ [] := fun empty => someSignature (congrArg some empty)
    simp [present, Except.map, pure, Except.pure]

theorem bytes_of_ofBytes {s : Bytes} {w : Wire} (read : ofBytes s = .ok w) :
    w.Proper ∧ w.bytes = s := by
  unfold ofBytes at read
  split at read
  next header payload signature segments =>
    have whole : [dot].intercalate (s.splitOn dot) = s := List.intercalate_splitOn dot
    rw [segments] at whole
    split at read
    · cases read
    split at read
    · cases read
    next someHeader somePayload =>
      simp only [bind_eq_ok, decodeSegment_eq_ok_iff] at read
      obtain ⟨h, rfl, p, rfl, read⟩ := read
      rw [Base64Url.encode_eq_nil] at someHeader somePayload
      rw [bytes_eq_intercalate]
      split at read
      next empty =>
        cases read
        subst empty
        exact ⟨⟨someHeader, somePayload, by simp⟩, whole⟩
      next present =>
        simp only [bind_eq_ok, map_eq_ok, decodeSegment_eq_ok_iff] at read
        obtain ⟨_, ⟨b, rfl, rfl⟩, made⟩ := read
        cases made
        rw [Base64Url.encode_eq_nil] at present
        exact ⟨⟨someHeader, somePayload, by simpa using present⟩, whole⟩
  · cases read

theorem ofBytes_eq_ok_iff {s : Bytes} {w : Wire} : ofBytes s = .ok w ↔ w.Proper ∧ w.bytes = s := by
  constructor
  · exact bytes_of_ofBytes
  · rintro ⟨proper, rfl⟩
    exact ofBytes_bytes proper

/-! The text of a token. -/

theorem ascii_of_mem_signedBytes {w : Wire} {x : UInt8} (member : x ∈ w.signedBytes) :
    x < 128 := by
  simp only [signedBytes, List.mem_append, List.mem_cons] at member
  rcases member with inside | rfl | inside
  · exact (Base64Url.ascii_of_mem_encode inside).1
  · decide
  · exact (Base64Url.ascii_of_mem_encode inside).1

theorem ascii_of_mem_bytes {w : Wire} {x : UInt8} (member : x ∈ w.bytes) : x < 128 := by
  simp only [bytes, List.mem_append, List.mem_cons] at member
  rcases member with inside | rfl | inside
  · exact ascii_of_mem_signedBytes inside
  · decide
  · exact (Base64Url.ascii_of_mem_encode inside).1

theorem utf8_text (w : Wire) : utf8 (ofAscii w.bytes) = w.bytes :=
  utf8_ofAscii fun _ => ascii_of_mem_bytes

theorem ofBytes_utf8_eq_ok_iff {text : String} {w : Wire} :
    ofBytes (utf8 text) = .ok w ↔ w.Proper ∧ ofAscii w.bytes = text := by
  rw [ofBytes_eq_ok_iff]
  constructor
  · rintro ⟨proper, same⟩
    exact ⟨proper, utf8_injective (by rw [utf8_text, same])⟩
  · rintro ⟨proper, rfl⟩
    exact ⟨proper, (utf8_text w).symm⟩

theorem text_eq_append (w : Wire) :
    ofAscii w.bytes = ofAscii w.signedBytes ++ "." ++
      ofAscii (Base64Url.encode (w.signature.getD [])) := by
  rw [bytes, ← List.singleton_append, ofAscii_append, ofAscii_append, ofAscii_dot,
    String.append_assoc]

theorem dot_not_mem_signature (w : Wire) :
    '.' ∉ (ofAscii (Base64Url.encode (w.signature.getD []))).toList := by
  apply dot_not_mem_ofAscii
  intro x member
  have plain := Base64Url.ascii_of_mem_encode member
  exact ⟨plain.1, plain.2.1⟩

end Wire

namespace Token

theorem wire_of_ofWire {w : Wire} {t : Token} (read : ofWire w = .ok t) : t.wire = w := by
  simp only [ofWire, bind_eq_ok] at read
  obtain ⟨header, -, payload, -, read⟩ := read
  repeat' split at read
  all_goals cases read
  rfl

theorem wire_of_decodeWithin {limit : Nat} {text : String} {t : Token}
    (read : decodeWithin limit text = .ok t) : Wire.ofBytes (utf8 text) = .ok t.wire := by
  unfold decodeWithin at read
  split at read
  · cases read
  split at read
  · cases read
  next w found =>
    rw [found, wire_of_ofWire read]

theorem encode_of_decodeWithin {limit : Nat} {text : String} {t : Token}
    (read : decodeWithin limit text = .ok t) : t.encode = text :=
  (Wire.ofBytes_utf8_eq_ok_iff.mp (wire_of_decodeWithin read)).2

theorem bytes_of_decodeWithin {limit : Nat} {text : String} {t : Token}
    (read : decodeWithin limit text = .ok t) : t.wire.bytes = utf8 text := by
  rw [← encode_of_decodeWithin read, encode, Wire.utf8_text]

theorem ofWire_of_decodeWithin {limit : Nat} {text : String} {t : Token}
    (read : decodeWithin limit text = .ok t) : ofWire t.wire = .ok t := by
  have found := wire_of_decodeWithin read
  simp only [decodeWithin, found] at read
  split at read
  · cases read
  · exact read

theorem eq_of_encode {limit otherLimit : Nat} {text otherText : String} {t other : Token}
    (read : decodeWithin limit text = .ok t) (otherRead : decodeWithin otherLimit otherText = .ok other)
    (same : t.encode = other.encode) : t = other := by
  rw [encode_of_decodeWithin read, encode_of_decodeWithin otherRead] at same
  subst same
  have wire : t.wire = other.wire :=
    Except.ok.inj ((wire_of_decodeWithin read).symm.trans (wire_of_decodeWithin otherRead))
  have parts := ofWire_of_decodeWithin read
  rw [wire, ofWire_of_decodeWithin otherRead] at parts
  exact (Except.ok.inj parts).symm

theorem codec_exact :
    (∀ (text : String) (w : Wire), Wire.ofBytes (utf8 text) = .ok w ↔
      w.header ≠ [] ∧ w.payload ≠ [] ∧ w.signature ≠ some [] ∧ ofAscii w.bytes = text) ∧
    (∀ (limit : Nat) (text : String) (t : Token), decodeWithin limit text = .ok t →
      t.encode = text ∧
      (∃ last : String, text = t.signedData ++ "." ++ last ∧ '.' ∉ last.toList) ∧
      ∀ h : HashAlgorithm, t.cid h = h.cid (utf8 text)) ∧
    ∀ (limit otherLimit : Nat) (text other : String) (t : Token),
      decodeWithin limit text = .ok t → decodeWithin otherLimit other = .ok t → text = other := by
  refine ⟨?_, ?_, ?_⟩
  · intro text w
    rw [Wire.ofBytes_utf8_eq_ok_iff, Wire.Proper, and_assoc, and_assoc]
  · intro limit text t read
    refine ⟨encode_of_decodeWithin read, ?_, ?_⟩
    · refine ⟨_, ?_, Wire.dot_not_mem_signature t.wire⟩
      rw [← encode_of_decodeWithin read, encode, Wire.text_eq_append, signedData]
    · intro h
      rw [cid, bytes_of_decodeWithin read]
  · intro limit otherLimit text other t read again
    rw [← encode_of_decodeWithin read, encode_of_decodeWithin again]

theorem codec_exact_of_short_text :
    let text := "eyJhbGciOiIiLCJ0eXAiOiJKV1QiLCJ1Y3YiOiIifQ" ++
      ".eyJpc3MiOiJkaWQ6YTpiIiwiYXVkIjoiZGlkOmE6YiIsImNhcCI6e319.UQ"
    ∃ t, decode text = .ok t ∧ t.encode = text ∧
      (∃ last : String, text = t.signedData ++ "." ++ last ∧ '.' ∉ last.toList) ∧
      ∀ h : HashAlgorithm, t.cid h = h.cid (utf8 text) := by
  intro text
  have readable : (decode text).toOption.isSome = true := by decide +kernel
  obtain ⟨t, found⟩ := Option.isSome_iff_exists.mp readable
  have read := eq_ok_of_toOption found
  exact ⟨t, read, codec_exact.2.1 maxSize text t read⟩

end Token

end Ucan
