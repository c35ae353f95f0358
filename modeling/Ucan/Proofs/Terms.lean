import Ucan.KeyResolver
import Ucan.Proofs.Wire

/-!
What of a token is enforced, and tokens that enforce what their text says.
-/

set_option autoImplicit false

namespace Ucan.Token

/-- The tokens have the same wire form, and nothing that is enforced differs. -/
structure SameTerms (t other : Token) : Prop where
  wire : t.wire = other.wire
  algorithm : t.header.algorithm = other.header.algorithm
  issuer : t.issuer = other.issuer
  audience : t.audience = other.audience
  expiresAt : t.payload.expiresAt = other.payload.expiresAt
  notBefore : t.payload.notBefore = other.payload.notBefore
  proofs : t.proofs = other.proofs

/-- Whoever reads the text of the token enforces the same. -/
def Candid (t : Token) : Prop :=
  ∀ limit read, decodeWithin limit t.encode = .ok read → t.SameTerms read

variable {t other : Token}

theorem SameTerms.refl (t : Token) : t.SameTerms t := ⟨rfl, rfl, rfl, rfl, rfl, rfl, rfl⟩

theorem candid_of_decodeWithin {limit : Nat} {text : String} (read : decodeWithin limit text = .ok t) :
    t.Candid := by
  intro otherLimit other again
  rw [encode_of_decodeWithin read] at again
  have same : t.encode = other.encode := by
    rw [encode_of_decodeWithin read, encode_of_decodeWithin again]
  cases eq_of_encode read again same
  exact .refl t

theorem Candid.sameTerms {limit : Nat} {text : String} (candid : t.Candid)
    (read : decodeWithin limit text = .ok other) (same : t.encode = other.encode) :
    t.SameTerms other := by
  rw [encode_of_decodeWithin read] at same
  exact candid limit other (same ▸ read)

namespace SameTerms

variable (same : t.SameTerms other)
include same

theorem cid (h : HashAlgorithm) : t.cid h = other.cid h := by
  rw [Token.cid, Token.cid, same.wire]

theorem checkSignature (keys : KeyResolver) :
    t.checkSignature keys = other.checkSignature keys := by
  rw [Token.checkSignature, Token.checkSignature, signature, signature, same.algorithm, same.wire,
    same.issuer]

theorem isExpired (now : UInt64) : t.isExpired now = other.isExpired now := by
  rw [Token.isExpired, Token.isExpired, Payload.isExpired, Payload.isExpired, same.expiresAt]

theorem isTooEarly (now : UInt64) : t.isTooEarly now = other.isTooEarly now := by
  rw [Token.isTooEarly, Token.isTooEarly, Payload.isTooEarly, Payload.isTooEarly, same.notBefore]

theorem lifetimeEncompasses {child kin : Token} (alike : child.SameTerms kin) :
    t.lifetimeEncompasses child = other.lifetimeEncompasses kin := by
  simp only [Token.lifetimeEncompasses, lifetimeBeginsBefore, lifetimeEndsAfter, same.expiresAt,
    same.notBefore, alike.expiresAt, alike.notBefore]

end SameTerms

end Ucan.Token
