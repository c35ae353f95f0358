import Ucan.Proofs.Header
import Ucan.Proofs.Payload
import Ucan.Proofs.Wire

/-!
Tokens in canonical form are decoded as they are. Whatever a text was decoded to can be brought into
that form, and what is built is in it.
-/

set_option autoImplicit false

namespace Ucan

open Json

theorem Json.canonical_object_ne_nil (members : List (String × Json)) :
    (object members).canonical ≠ [] := by
  simp [canonical, sort, print]

namespace Token

/-- What is checked of a token besides its two parts. -/
structure Accepted (t : Token) : Prop where
  typed : t.header.tokenType = tokenType
  versioned : ¬ (t.header.version = none ∧ t.payload.version = none)
  capable : ¬ (t.payload.capabilityMap = none ∧ t.payload.attenuations = none)

theorem parseSegment_eq_ok {α : Type} {segment : Wire.Segment}
    {parse : Bytes → Except Json.Error α} {s : Bytes} {a : α} :
    parseSegment segment parse s = .ok a ↔ parse s = .ok a := by
  rw [parseSegment]
  cases parse s <;> simp

theorem ofWire_eq_ok_iff {w : Wire} {t : Token} :
    ofWire w = .ok t ↔ t.wire = w ∧ Header.parse w.header = .ok t.header ∧
      Payload.parse w.payload = .ok t.payload ∧ t.Accepted := by
  simp only [ofWire, bind_eq_ok, parseSegment_eq_ok]
  constructor
  · rintro ⟨header, headed, payload, loaded, read⟩
    split at read
    · cases read
    next typed =>
      split at read
      · cases read
      next versioned =>
        split at read
        · cases read
        next capable =>
          cases read
          exact ⟨rfl, headed, loaded, Decidable.not_not.mp typed, versioned, capable⟩
  · rintro ⟨rfl, headed, loaded, typed, versioned, capable⟩
    refine ⟨_, headed, _, loaded, ?_⟩
    rw [if_neg (Decidable.not_not.mpr typed), if_neg versioned, if_neg capable]
    rfl

theorem decodeWithin_encode {limit : Nat} {t : Token} (size : t.encode.utf8ByteSize ≤ limit)
    (proper : t.wire.Proper) : decodeWithin limit t.encode = ofWire t.wire := by
  rw [decodeWithin, if_neg (Nat.not_lt.mpr size), encode, Wire.utf8_text, Wire.ofBytes_bytes proper]

/-- The wire form is the canonical one of what the token says, signed or not. -/
structure Canonical (t : Token) : Prop where
  header : t.wire.header = t.header.toJson.canonical
  payload : t.wire.payload = t.payload.toJson.canonical
  signature : t.wire.signature ≠ some []

theorem canonical_ofParts (header : Header) (payload : Payload) :
    (ofParts header payload).Canonical :=
  ⟨rfl, rfl, nofun⟩

variable {t : Token}

theorem Canonical.proper (canonical : t.Canonical) : t.wire.Proper := by
  refine ⟨?_, ?_, canonical.signature⟩
  · rw [canonical.header]
    exact canonical_object_ne_nil _
  · rw [canonical.payload]
    exact canonical_object_ne_nil _

theorem Canonical.decode_eq {limit : Nat} (canonical : t.Canonical)
    (header : t.header.Readable) (headerIntegral : t.header.toJson.Integral)
    (payloadIntegral : t.payload.toJson.Integral) (accepted : t.Accepted)
    (size : t.encode.utf8ByteSize ≤ limit) :
    decodeWithin limit t.encode = .ok t ↔ t.payload.Readable := by
  have headed := Header.parse_canonical header headerIntegral
  rw [decodeWithin_encode size canonical.proper, ofWire_eq_ok_iff, canonical.header,
    canonical.payload, Payload.parse_canonical_eq_ok_iff payloadIntegral]
  exact ⟨fun read => read.2.2.1, fun payload => ⟨rfl, headed, payload, accepted⟩⟩

/-! ## Decoded tokens in canonical form -/

theorem decodeWithin_ofParts {limit otherLimit : Nat} {text : String} {u : Token}
    (read : decodeWithin limit text = .ok u) (headerIntegral : u.header.toJson.Integral)
    (payloadIntegral : u.payload.toJson.Integral)
    (size : (ofParts u.header u.payload).encode.utf8ByteSize ≤ otherLimit) :
    decodeWithin otherLimit (ofParts u.header u.payload).encode =
      .ok (ofParts u.header u.payload) := by
  obtain ⟨-, headed, loaded, typed, versioned, capable⟩ :=
    ofWire_eq_ok_iff.mp (ofWire_of_decodeWithin read)
  refine ((canonical_ofParts u.header u.payload).decode_eq (Header.readable_of_parse headed)
    headerIntegral payloadIntegral ⟨typed, versioned, capable⟩ size).mpr ?_
  exact Payload.readable_of_parse loaded

/-- Bringing a decoded token into canonical form keeps what it says, and happens once. -/
theorem reencode_exact (limit otherLimit : Nat) (text : String) (u : Token)
    (read : decodeWithin limit text = .ok u) (headerIntegral : u.header.toJson.Integral)
    (payloadIntegral : u.payload.toJson.Integral)
    (size : (ofParts u.header u.payload).encode.utf8ByteSize ≤ otherLimit) :
    ∃ v, decodeWithin otherLimit (ofParts u.header u.payload).encode = .ok v ∧
      v = ofParts u.header u.payload ∧ v.header = u.header ∧ v.payload = u.payload ∧
      utf8 v.signedData = canonicalBytes u.header u.payload ∧
      (ofParts v.header v.payload).encode = v.encode :=
  ⟨_, decodeWithin_ofParts read headerIntegral payloadIntegral size, rfl, rfl, rfl,
    utf8_ofAscii fun _ => Wire.ascii_of_mem_signedBytes, rfl⟩

theorem reencode_exact_of_unordered_text :
    let text := "eyJ1Y3YiOiIiLCJ0eXAiOiJKV1QiLCJhbGciOiIifQ" ++
      ".eyJpc3MiOiJkaWQ6YTpiIiwieCI6WzFdLCJhdWQiOiJkaWQ6YTpiIiwiYXR0IjpbeyJjYW4iOiJlIiwid2l0aCI6InIi" ++
      "LCJuIjotMn1dfQ.UQ"
    ∃ u, decodeWithin maxSize text = .ok u ∧ u.header.toJson.Integral ∧
      u.payload.toJson.Integral ∧ (ofParts u.header u.payload).encode.utf8ByteSize ≤ maxSize ∧
      ∃ v, decodeWithin maxSize (ofParts u.header u.payload).encode = .ok v ∧
        v = ofParts u.header u.payload ∧ v.header = u.header ∧ v.payload = u.payload ∧
        utf8 v.signedData = canonicalBytes u.header u.payload ∧
        (ofParts v.header v.payload).encode = v.encode := by
  intro text
  have checked : (decodeWithin maxSize text).toOption.any (fun u =>
      u.header.toJson.Integral ∧ u.payload.toJson.Integral ∧
        (ofParts u.header u.payload).encode.utf8ByteSize ≤ maxSize) = true := by decide +kernel
  obtain ⟨u, found, holds⟩ := (Option.any_eq_true _ _).mp checked
  obtain ⟨headerIntegral, payloadIntegral, size⟩ := of_decide_eq_true holds
  have read := eq_ok_of_toOption found
  exact ⟨u, read, headerIntegral, payloadIntegral, size,
    reencode_exact maxSize maxSize text u read headerIntegral payloadIntegral size⟩

end Token

end Ucan
