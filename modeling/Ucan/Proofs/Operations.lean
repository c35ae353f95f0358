import Ucan.Operations
import Ucan.Proofs.BuildOptions
import Ucan.Proofs.Lifetime
import Ucan.Proofs.Signer
import Ucan.Proofs.Validator

/-!
Tokens that were built and signed are accepted from their text: their signature always, and without
proofs the whole token for as long as it lives.
-/

set_option autoImplicit false

namespace Ucan

theorem within_eq_ok_iff {ε α : Type} {name : ε → Error} {x : Except ε α} {a : α} :
    within name x = .ok a ↔ x = .ok a := by
  cases x <;> simp [within]

theorem Builder.buildSigned_eq_ok_iff {b : Builder} {now : UInt64} {signer : Signer} {t : Token} :
    b.buildSigned now signer = .ok t ↔
      ∃ draft, b.build now = .ok draft ∧ draft.sign signer = .ok t := by
  unfold buildSigned
  rw [bind_eq_ok]
  constructor
  · rintro ⟨draft, built, made⟩
    split at made
    next signed done =>
      cases made
      exact ⟨draft, built, done⟩
    · cases made
  · rintro ⟨draft, built, done⟩
    refine ⟨draft, built, ?_⟩
    rw [done]
    rfl

theorem Token.Canonical.sign {t signed : Token} {k : Keypair} (canonical : t.Canonical)
    (verifies : k.Verifies) (done : t.sign k.signer = .ok signed) : signed.Canonical := by
  have present := signature_ne_nil_of_sign verifies done
  obtain ⟨-, -, -, signature, -, rfl⟩ := sign_eq_ok_iff.mp done
  exact ⟨canonical.header, canonical.payload, present⟩

theorem Delegation.Context.walk_of_no_proofs {σ : Type} (c : Context σ) {t : Token} (state : σ)
    (alone : t.proofs = []) : (c.walk t state).1 = .ok () := by
  have pending : (Walk.start t state).pending = [] := by
    rw [Walk.start, Walk.pending_push, alone]
    rfl
  rw [walk, run_of_done (turn_of_nil pending)]

theorem Validator.validateWith_of_no_proofs {σ : Type} {v : Validator} {t : Token}
    (alone : t.proofs = []) (signed : t.checkSignature v.keys = .ok ()) (proofs : ProofResolver σ)
    (state : σ) (now : UInt64) :
    v.validateWith proofs state now t = .ok () ↔
      (∀ notBefore ∈ t.payload.notBefore, notBefore ≤ now) ∧
        ∀ expiresAt ∈ t.payload.expiresAt, now < expiresAt := by
  rw [validateWith_eq_ok_iff, Token.isExpired_eq_false_iff, Token.isTooEarly_eq_false_iff]
  constructor
  · rintro ⟨-, ⟨fresh, begun⟩, -⟩
    exact ⟨begun, fresh⟩
  · rintro ⟨begun, fresh⟩
    exact ⟨signed, ⟨fresh, begun⟩, Delegation.Context.walk_of_no_proofs _ state alone⟩

/-- Whatever contents were read, what a key pair makes of them is accepted as its own, and without
proofs it is valid at exactly the times it is made for. -/
theorem accepted_of_buildSigned (k : Keypair) (audience : String) (json : Bytes)
    (options : BuildOptions) (now : UInt64) (t : Token) (verifies : k.Verifies)
    (parsed : BuildOptions.parse json = .ok options) (integral : options.Integral)
    (built : buildSigned k.signer audience options now = .ok t)
    (size : t.encode.utf8ByteSize ≤ Token.maxSize) :
    checkSignature t.encode = .ok () ∧ Token.decode t.encode = .ok t ∧
      (t.proofs = [] → ∀ (σ : Type) (v : Validator) (proofs : ProofResolver σ) (state : σ)
        (time : UInt64), v.keys = .ofDid →
        (v.validateWith proofs state time t = .ok () ↔
          (∀ notBefore ∈ t.payload.notBefore, notBefore ≤ time) ∧
            ∀ expiresAt ∈ t.payload.expiresAt, time < expiresAt)) := by
  -- The builder was prepared for a recipient, what it holds was built, and the draft was signed.
  obtain ⟨b, prepared, built⟩ := bind_eq_ok.mp built
  obtain ⟨recipient, addressed, made⟩ := bind_eq_ok.mp prepared
  cases made
  obtain ⟨draft, drafted, done⟩ := Builder.buildSigned_eq_ok_iff.mp (within_eq_ok_iff.mp built)
  have canonical := (Builder.canonical_of_build drafted).sign verifies done
  have signed : t.checkSignature .ofDid = .ok () :=
    Token.checkSignature_of_sign verifies rfl done
  have header : t.header = draft.header ∧ t.payload = draft.payload := by
    obtain ⟨-, -, -, _, -, rfl⟩ := Token.sign_eq_ok_iff.mp done
    exact ⟨rfl, rfl⟩
  have read : Token.decode t.encode = .ok t :=
    BuildOptions.decode_of_build (BuildOptions.sound_of_parse parsed) integral (.inr ⟨k, rfl⟩)
      (.inl ⟨audience, within_eq_ok_iff.mp addressed⟩) drafted header.1 header.2 canonical size
  refine ⟨?_, read, fun alone σ v proofs state time keys => ?_⟩
  · exact bind_eq_ok.mpr ⟨t, within_eq_ok_iff.mpr read, within_eq_ok_iff.mpr signed⟩
  · exact Validator.validateWith_of_no_proofs alone (keys ▸ signed) proofs state time

deriving instance DecidableEq for BuildOptions

theorem accepted_of_buildSigned_of_lifetime :
    let json := utf8 "\x7b\"lifetimeInSeconds\":5,\"facts\":[-1]\x7d"
    let options : BuildOptions :=
      { lifetime := some 5, facts := some (.array [.number (.integer (-1) (by decide))]) }
    BuildOptions.parse json = .ok options ∧ options.Integral ∧ Keypair.sample.Verifies ∧
      ∃ t, buildSigned Keypair.sample.signer "did:a:b" options 3 = .ok t ∧
        t.encode.utf8ByteSize ≤ Token.maxSize ∧ t.proofs = [] ∧
        checkSignature t.encode = .ok () ∧ Token.decode t.encode = .ok t ∧
        (({} : Validator).validate ProofReference.resolveInline 7 t = .ok () ↔
          (∀ notBefore ∈ t.payload.notBefore, notBefore ≤ 7) ∧
            ∀ expiresAt ∈ t.payload.expiresAt, 7 < expiresAt) := by
  intro json options
  have parsed : BuildOptions.parse json = .ok options := eq_ok_of_toOption (by decide +kernel)
  have integral : options.Integral := ⟨by decide, nofun⟩
  have made : (buildSigned Keypair.sample.signer "did:a:b" options 3).toOption.any
      fun t => t.encode.utf8ByteSize ≤ Token.maxSize && t.proofs == [] := by decide +kernel
  obtain ⟨t, built, properties⟩ := exists_ok_of_any made
  simp only [Bool.and_eq_true, decide_eq_true_eq, beq_iff_eq] at properties
  obtain ⟨size, alone⟩ := properties
  obtain ⟨signed, read, valid⟩ := accepted_of_buildSigned Keypair.sample "did:a:b" json options 3 t
    Keypair.verifies_sample parsed integral built size
  exact ⟨parsed, integral, Keypair.verifies_sample, t, built, size, alone, signed, read,
    valid alone Unit {} _ () 7 rfl⟩

end Ucan
