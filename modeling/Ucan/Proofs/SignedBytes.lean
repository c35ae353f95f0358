import Ucan.Proofs.Related
import Ucan.Proofs.RoundTrip

/-!
The bytes that a signature covers tell what is signed: they are the same for the same header and
payload, whatever the order of members, and for no others.
-/

set_option autoImplicit false

namespace Ucan

open Json

theorem Token.canonicalBytes_eq_iff {h other : Header} {p payload : Payload} :
    canonicalBytes h p = canonicalBytes other payload ↔
      h.toJson.canonical = other.toJson.canonical ∧
        p.toJson.canonical = payload.toJson.canonical := by
  constructor
  · -- No segment holds the byte that separates them, so the bytes give back the two parts.
    intro same
    have bytes : (ofParts h p).wire.bytes = (ofParts other payload).wire.bytes := by
      rw [Wire.bytes, Wire.bytes]
      exact congrArg (· ++ _) same
    have read := Wire.ofBytes_bytes (canonical_ofParts h p).proper
    rw [bytes, Wire.ofBytes_bytes (canonical_ofParts other payload).proper] at read
    have wire := Except.ok.inj read
    exact ⟨(congrArg Wire.header wire).symm, (congrArg Wire.payload wire).symm⟩
  · rintro ⟨header, payload⟩
    simp only [canonicalBytes, ofParts, Wire.signedBytes, header, payload]

/-- Every member of the text stands for one thing only: no field is among the other members, no name
is twice in an object, and all numbers are integers. -/
structure Header.Definite (h : Header) : Prop where
  apart : ∀ e ∈ h.extra.entries, e.1 ∉ fieldNames
  distinct : h.toJson.Distinct
  integral : h.toJson.Integral

/-- As for headers, and the same of the attenuations. -/
structure Payload.Definite (p : Payload) : Prop where
  apart : ∀ e ∈ p.extra.entries, e.1 ∉ fieldNames
  attenuations : ∀ as ∈ p.attenuations, ∀ a ∈ as, a.Readable
  distinct : p.toJson.Distinct
  integral : p.toJson.Integral

theorem Header.canonical_eq_iff {h other : Header} (definite : h.Definite)
    (otherDefinite : other.Definite) :
    h.toJson.canonical = other.toJson.canonical ↔ h.Related Alike other := by
  rw [canonical_eq_canonical_iff definite.distinct otherDefinite.distinct definite.integral
    otherDefinite.integral]
  exact related_toJson structural_alike definite.apart otherDefinite.apart

theorem Payload.canonical_eq_iff {p other : Payload} (definite : p.Definite)
    (otherDefinite : other.Definite) :
    p.toJson.canonical = other.toJson.canonical ↔ p.Related Alike other := by
  rw [canonical_eq_canonical_iff definite.distinct otherDefinite.distinct definite.integral
    otherDefinite.integral]
  exact related_toJson structural_alike definite.apart otherDefinite.apart definite.attenuations
    otherDefinite.attenuations

/-- Both identifiers are such that their texts are those of no others. -/
def Payload.Regular (p : Payload) : Prop := p.issuer.Regular ∧ p.audience.Regular

theorem Payload.Related.parties {R : Json → Json → Prop} {p other : Payload}
    (related : p.Related R other) (regular : p.Regular) (otherRegular : other.Regular) :
    p.issuer = other.issuer ∧ p.audience = other.audience :=
  ⟨regular.1.eq_of_toString otherRegular.1 related.issuer,
    regular.2.eq_of_toString otherRegular.2 related.audience⟩

/-- The bytes are the same when header and payload are, but for the order of members and as far as
identifiers are told from their texts. If these are not the texts of others, the identifiers are the
same as well; a payload as it is held, with its members in order, is then the same one. -/
theorem Token.canonicalBytes_exact (h other : Header) (p payload : Payload) (header : h.Definite)
    (otherHeader : other.Definite) (definite : p.Definite) (otherDefinite : payload.Definite) :
    (canonicalBytes h p = canonicalBytes other payload ↔
      h.Related Alike other ∧ p.Related Alike payload) ∧
    (p.Regular → payload.Regular →
      (canonicalBytes h p = canonicalBytes other payload ↔ h.Related Alike other ∧
        p.Related Alike payload ∧ p.issuer = payload.issuer ∧ p.audience = payload.audience)) ∧
    (h.toJson.Ordered → other.toJson.Ordered → p.toJson.Ordered → payload.toJson.Ordered →
      p.Regular → payload.Regular →
      (canonicalBytes h p = canonicalBytes other payload ↔ h = other ∧ p = payload)) := by
  have bytes : canonicalBytes h p = canonicalBytes other payload ↔
      h.Related Alike other ∧ p.Related Alike payload := by
    rw [canonicalBytes_eq_iff, Header.canonical_eq_iff header otherHeader,
      Payload.canonical_eq_iff definite otherDefinite]
  refine ⟨bytes, ?_, ?_⟩
  · intro regular otherRegular
    rw [bytes]
    constructor
    · rintro ⟨headers, payloads⟩
      exact ⟨headers, payloads, payloads.parties regular otherRegular⟩
    · rintro ⟨headers, payloads, -⟩
      exact ⟨headers, payloads⟩
  · intro ordered otherOrdered inOrder otherInOrder regular otherRegular
    rw [canonicalBytes_eq_iff]
    constructor
    · rintro ⟨sameHeader, samePayload⟩
      have related := (Payload.canonical_eq_iff definite otherDefinite).mp samePayload
      rw [canonical_of_ordered ordered, canonical_of_ordered otherOrdered] at sameHeader
      rw [canonical_of_ordered inOrder, canonical_of_ordered otherInOrder] at samePayload
      have headers := print_injective ordered otherOrdered header.integral otherHeader.integral
        sameHeader
      have payloads := print_injective inOrder otherInOrder definite.integral
        otherDefinite.integral samePayload
      rw [Header.related_toJson structural_eq header.apart otherHeader.apart] at headers
      rw [Payload.related_toJson structural_eq definite.apart otherDefinite.apart
        definite.attenuations otherDefinite.attenuations] at payloads
      obtain ⟨issuer, audience⟩ := related.parties regular otherRegular
      exact ⟨headers.eq, payloads.eq issuer audience⟩
    · rintro ⟨rfl, rfl⟩
      exact ⟨rfl, rfl⟩

/-- The members of some facts may be given in another order, and null facts are not none. -/
theorem Token.canonicalBytes_exact_of_facts :
    let header : Header := ⟨"", "JWT", some "", .empty⟩
    let payload : Option Json → Payload := fun facts =>
      ⟨none, .other "a" "b", .other "c" "d", none, none, none, facts, some .empty, none, none, .empty⟩
    let ordered := payload (some (.object [("a", .null), ("b", .bool true)]))
    let unordered := payload (some (.object [("b", .bool true), ("a", .null)]))
    (header.Definite ∧ ordered.Definite ∧ unordered.Definite) ∧
      canonicalBytes header ordered = canonicalBytes header unordered ∧
      canonicalBytes header (payload none) ≠ canonicalBytes header (payload (some .null)) := by
  intro header payload ordered unordered
  have definite : header.Definite := ⟨nofun, by decide +kernel, by decide +kernel⟩
  have orderedDefinite : ordered.Definite := ⟨nofun, nofun, by decide +kernel, by decide +kernel⟩
  have unorderedDefinite : unordered.Definite :=
    ⟨nofun, nofun, by decide +kernel, by decide +kernel⟩
  have noneDefinite : (payload none).Definite :=
    ⟨nofun, nofun, by decide +kernel, by decide +kernel⟩
  have nullDefinite : (payload (some .null)).Definite :=
    ⟨nofun, nofun, by decide +kernel, by decide +kernel⟩
  refine ⟨⟨definite, orderedDefinite, unorderedDefinite⟩, ?_, ?_⟩
  · have facts : Alike (.object [("a", .null), ("b", .bool true)])
        (.object [("b", .bool true), ("a", .null)]) :=
      (sort_eq_sort_iff (by decide) (by decide)).mp (by decide)
    have headers : header.Related Alike header := ⟨rfl, rfl, rfl, fun _ => .none⟩
    have payloads : ordered.Related Alike unordered :=
      ⟨rfl, rfl, rfl, rfl, rfl, rfl, .some facts, .some fun _ => .none, .none, rfl, fun _ => .none⟩
    exact (canonicalBytes_exact header header ordered unordered definite definite orderedDefinite
      unorderedDefinite).1.mpr ⟨headers, payloads⟩
  · have regular (facts : Option Json) : (payload facts).Regular :=
      ⟨⟨by decide, by decide⟩, by decide, by decide⟩
    intro same
    have equal := ((canonicalBytes_exact header header (payload none) (payload (some .null)) definite
      definite noneDefinite nullDefinite).2.2 (by decide +kernel) (by decide +kernel)
      (by decide +kernel) (by decide +kernel) (regular _) (regular _)).mp same
    cases congrArg Payload.facts equal.2

/-- The same bytes stand for two issuers, where it is not told from the text which is meant. -/
theorem Token.not_issuer_of_canonicalBytes :
    let header : Header := ⟨"", "JWT", some "", .empty⟩
    let payload (issuer : Did) : Payload :=
      ⟨none, issuer, .other "c" "d", none, none, none, none, some .empty, none, none, .empty⟩
    let first := payload (.other "a:b" "c")
    let second := payload (.other "a" "b:c")
    (header.Definite ∧ first.Definite ∧ second.Definite) ∧
      canonicalBytes header first = canonicalBytes header second ∧ first.issuer ≠ second.issuer ∧
      ¬∀ (h other : Header) (p q : Payload), h.Definite → other.Definite → p.Definite → q.Definite →
        canonicalBytes h p = canonicalBytes other q → p.issuer = q.issuer := by
  intro header payload first second
  have definite : header.Definite := ⟨nofun, by decide +kernel, by decide +kernel⟩
  have firstDefinite : first.Definite := ⟨nofun, nofun, by decide +kernel, by decide +kernel⟩
  have secondDefinite : second.Definite := ⟨nofun, nofun, by decide +kernel, by decide +kernel⟩
  have same : canonicalBytes header first = canonicalBytes header second := by decide +kernel
  have differ : first.issuer ≠ second.issuer := by decide
  exact ⟨⟨definite, firstDefinite, secondDefinite⟩, same, differ, fun claim =>
    differ (claim header header first second definite definite firstDefinite secondDefinite same)⟩

end Ucan
