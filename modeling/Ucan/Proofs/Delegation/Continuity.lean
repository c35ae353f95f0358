import Ucan.Proofs.Delegation.Graph
import Ucan.Proofs.Lossless
import Ucan.Proofs.RoundTrip

/-!
A proof is delegated to the issuer of a token when the texts of the two identifiers are the same,
since no identifier is read from two texts.
-/

set_option autoImplicit false

namespace Ucan

variable {keys : KeyResolver} {now : UInt64} {reference r : String} {child proof t : Token}
  {a i : Did}

theorem checkLink_brokenLink_iff :
    checkLink keys now reference child proof = .error (.brokenLink r a i) ↔
      proof.audience ≠ child.issuer ∧ r = reference ∧ a = proof.audience ∧ i = child.issuer := by
  unfold checkLink
  by_cases continued : proof.audience = child.issuer
  next =>
    rw [if_neg (not_not_intro continued)]
    refine iff_of_false ?_ fun broken => broken.1 continued
    intro broken
    repeat' split at broken
    all_goals cases broken
  next =>
    rw [if_pos continued]
    constructor
    next =>
      intro broken
      cases broken
      exact ⟨continued, rfl, rfl, rfl⟩
    next =>
      rintro ⟨_, rfl, rfl, rfl⟩
      rfl

/-- The identifiers of the parties, as they stand in the payload's text. -/
theorem Token.parties_of_decodeWithin {limit : Nat} {text : String}
    (read : decodeWithin limit text = .ok t) :
    ∃ m : Members, Json.parse t.wire.payload = .ok (.ofMembers m) ∧
      m.find? "iss" = some (.string t.issuer.toString) ∧
      m.find? "aud" = some (.string t.audience.toString) ∧
      t.issuer.WellFormed ∧ t.audience.WellFormed := by
  have ⟨_, _, loaded, _⟩ := ofWire_eq_ok_iff.mp (ofWire_of_decodeWithin read)
  have ⟨m, value, issuer, audience⟩ := Payload.parties_of_parse loaded
  have readable := Payload.readable_of_parse loaded
  exact ⟨m, value, issuer, audience, Did.wellFormed_of_parse readable.issuer,
    Did.wellFormed_of_parse readable.audience⟩

/-- The texts that are read as identifiers are those of the well-formed ones, each of which has one.
So the proof of a link is delegated to the issuer of the token when the two payloads have the same
text there. -/
theorem Did.texts_exact :
    (∀ (text : String) (d : Did), parse text = .ok d ↔ d.toString = text ∧ d.WellFormed) ∧
      (∀ d e : Did, d.WellFormed → e.WellFormed → (d = e ↔ d.toString = e.toString)) ∧
      ∀ (limit otherLimit : Nat) (text otherText : String) (child proof : Token),
        Token.decodeWithin limit text = .ok child →
        Token.decodeWithin otherLimit otherText = .ok proof →
        ∃ (m n : Members) (issuer audience : String),
          Json.parse child.wire.payload = .ok (.ofMembers m) ∧
          m.find? "iss" = some (.string issuer) ∧ parse issuer = .ok child.issuer ∧
          Json.parse proof.wire.payload = .ok (.ofMembers n) ∧
          n.find? "aud" = some (.string audience) ∧ parse audience = .ok proof.audience ∧
          ∀ keys now reference r a i,
            checkLink keys now reference child proof = .error (.brokenLink r a i) ↔
              audience ≠ issuer ∧ r = reference ∧ a = proof.audience ∧ i = child.issuer := by
  refine ⟨fun _ _ => parse_eq_ok_iff, fun _ _ proper other => proper.eq_iff other, ?_⟩
  intro limit otherLimit text otherText child proof read otherRead
  have ⟨m, value, issued, _, issuer, _⟩ := Token.parties_of_decodeWithin read
  have ⟨n, otherValue, _, addressed, _, audience⟩ := Token.parties_of_decodeWithin otherRead
  refine ⟨m, n, _, _, value, issued, issuer.readable, otherValue, addressed, audience.readable, ?_⟩
  intro keys now reference r a i
  rw [checkLink_brokenLink_iff, ne_eq, audience.eq_iff issuer]

theorem Did.texts_exact_of_leaf :
    let d := Did.other "a" "b"
    let e := Did.other "web" "b:c"
    let leaf := Delegation.Sample.leaf
    let root := Delegation.Sample.root
    d.WellFormed ∧ e.WellFormed ∧ (d = e ↔ d.toString = e.toString) ∧
      Token.decode leaf.encode = .ok leaf ∧ Token.decode root.encode = .ok root ∧
      ∃ (m n : Members) (issuer audience : String),
        Json.parse leaf.wire.payload = .ok (.ofMembers m) ∧
        m.find? "iss" = some (.string issuer) ∧ parse issuer = .ok leaf.issuer ∧
        Json.parse root.wire.payload = .ok (.ofMembers n) ∧
        n.find? "aud" = some (.string audience) ∧ parse audience = .ok root.audience ∧
        ∀ keys now reference r a i,
          checkLink keys now reference leaf root = .error (.brokenLink r a i) ↔
            audience ≠ issuer ∧ r = reference ∧ a = root.audience ∧ i = leaf.issuer := by
  intro d e leaf root
  have read : parse "did:a:b" = .ok d := eq_ok_of_toOption (by decide +kernel)
  have otherRead : parse "did:web:b:c" = .ok e := eq_ok_of_toOption (by decide +kernel)
  have proper := wellFormed_of_parse read
  have otherProper := wellFormed_of_parse otherRead
  have decoded := Delegation.Sample.decode_leaf
  have otherDecoded := Delegation.Sample.decode_root
  exact ⟨proper, otherProper, texts_exact.2.1 d e proper otherProper, decoded, otherDecoded,
    texts_exact.2.2 _ _ _ _ leaf root decoded otherDecoded⟩

end Ucan
