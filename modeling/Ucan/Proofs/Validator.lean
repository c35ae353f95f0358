import Ucan.Proofs.Except
import Ucan.Validator

/-!
The checks that make up a validation, and the order in which they are made.
-/

set_option autoImplicit false

namespace Ucan.Validator

variable {σ : Type} {v : Validator} {proofs : ProofResolver σ} {state : σ} {now : UInt64}
  {t : Token}

theorem filter_eq_none {p : UInt64 → Bool} {time : Option UInt64} (never : time.any p = false) :
    time.filter p = none := by
  cases time <;> simp_all [Option.filter]

theorem checkTime_of_expired (expired : t.isExpired now = true) :
    ∃ expiresAt, t.payload.expiresAt = some expiresAt ∧
      checkTime now t = .error (.expired expiresAt now) := by
  unfold Token.isExpired Payload.isExpired at expired
  cases known : t.payload.expiresAt with
  | none => simp [known] at expired
  | some expiresAt =>
    have passed : expiresAt ≤ now := by simpa [known] using expired
    refine ⟨expiresAt, rfl, ?_⟩
    rw [checkTime, known, Option.filter_some, if_pos (decide_eq_true passed)]

theorem checkTime_of_tooEarly (active : t.isExpired now = false) (early : t.isTooEarly now = true) :
    ∃ notBefore, t.payload.notBefore = some notBefore ∧
      checkTime now t = .error (.tooEarly notBefore now) := by
  have fresh := filter_eq_none active
  unfold Token.isTooEarly Payload.isTooEarly at early
  cases known : t.payload.notBefore with
  | none => simp [known] at early
  | some notBefore =>
    have ahead : now < notBefore := by simpa [known] using early
    refine ⟨notBefore, rfl, ?_⟩
    rw [checkTime, fresh, known, Option.filter_some, if_pos (decide_eq_true ahead)]

theorem checkTime_of_active (active : t.isExpired now = false) (begun : t.isTooEarly now = false) :
    checkTime now t = .ok () := by
  have fresh := filter_eq_none active
  have past := filter_eq_none begun
  rw [checkTime, fresh, past]

theorem checkTime_eq_ok_iff :
    checkTime now t = .ok () ↔ t.isExpired now = false ∧ t.isTooEarly now = false := by
  constructor
  · intro good
    cases active : t.isExpired now with
    | true =>
      obtain ⟨_, -, failed⟩ := checkTime_of_expired active
      simp [failed] at good
    | false =>
      cases begun : t.isTooEarly now with
      | true =>
        obtain ⟨_, -, failed⟩ := checkTime_of_tooEarly active begun
        simp [failed] at good
      | false => exact ⟨rfl, rfl⟩
  · rintro ⟨active, begun⟩
    exact checkTime_of_active active begun

theorem checkSignature_eq_ok_iff :
    v.checkSignature t = .ok () ↔ t.checkSignature v.keys = .ok () := by
  unfold checkSignature
  split <;> simp_all

/-! ## The first check that fails -/

theorem validateWith_of_signature {e : SignatureError} (failed : t.checkSignature v.keys = .error e) :
    v.validateWith proofs state now t = .error (.signature e) := by
  rw [validateWith, checkSignature, failed]
  rfl

theorem validateWith_of_time {e : ValidationError} (signed : t.checkSignature v.keys = .ok ())
    (failed : checkTime now t = .error e) : v.validateWith proofs state now t = .error e := by
  rw [validateWith, checkSignature_eq_ok_iff.mpr signed, failed]
  rfl

theorem validateWith_of_chain {e : ChainError} (signed : t.checkSignature v.keys = .ok ())
    (active : t.isExpired now = false) (begun : t.isTooEarly now = false)
    (failed : (Delegation.Context.walk ⟨proofs, v.keys, v.maxDepth, now⟩ t state).1 = .error e) :
    v.validateWith proofs state now t = .error (.chain e) := by
  rw [validateWith, checkSignature_eq_ok_iff.mpr signed, checkTime_of_active active begun, failed]
  rfl

theorem validateWith_eq_ok_iff :
    v.validateWith proofs state now t = .ok () ↔ t.checkSignature v.keys = .ok () ∧
      (t.isExpired now = false ∧ t.isTooEarly now = false) ∧
        (Delegation.Context.walk ⟨proofs, v.keys, v.maxDepth, now⟩ t state).1 = .ok () := by
  simp only [validateWith, seq_eq_ok_iff, checkSignature_eq_ok_iff, checkTime_eq_ok_iff]
  cases (Delegation.Context.walk ⟨proofs, v.keys, v.maxDepth, now⟩ t state).1 <;> simp

end Ucan.Validator
