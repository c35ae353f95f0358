import Ucan.Proofs.Delegation.PlainWalk
import Ucan.Proofs.Validator

/-!
A token is valid when it is so by itself and all links below it are good, wherever they are and in
whatever order.
-/

set_option autoImplicit false

namespace Ucan.Delegation

variable {σ : Type} {answer : Lookup} {keys : KeyResolver} {limit : Nat} {now : UInt64}
  {c : Context σ} {t : Token}

/-- All links below a token are good, and no chain of them is too long. -/
structure Delegated (answer : Lookup) (keys : KeyResolver) (limit : Nat) (now : UInt64)
    (t : Token) : Prop where
  supported : ∀ {n child}, Path answer t n child → ∀ reference ∈ child.proofs,
    ∃ proof, Resolves answer reference proof ∧ Supports keys now child proof
  short : ∀ {n found}, Path answer t n found → n ≤ limit

theorem Resolves.unique {reference : String} {proof other : Token}
    (resolved : Resolves answer reference proof) (again : Resolves answer reference other) :
    proof = other := by
  rw [← find_eq_ok_iff] at resolved again
  exact Except.ok.inj (resolved.symm.trans again)

/-! ## All that is walked through -/

theorem plain_of_path (good : answer.plain c 1 t = .ok ()) {n : Nat} {found : Token}
    (path : Path answer t n found) : n ≤ c.maxDepth ∧ answer.plain c (n + 1) found = .ok () := by
  -- A path of some length ends where the links have one more than that as their depth.
  induction path with
  | root => exact ⟨Nat.zero_le _, good⟩
  | @proof n child proof reference path listed resolved ih =>
    obtain ⟨within, other, followed, below⟩ := plain_eq_ok_iff.mp ih.2 reference listed
    obtain rfl := resolved.unique (follow_eq_ok_iff.mp followed).1
    exact ⟨within, below⟩

theorem delegated_of_plain (good : answer.plain c 1 t = .ok ()) :
    Delegated answer c.keys c.maxDepth c.now t := by
  constructor
  · intro n child path reference listed
    obtain ⟨-, proof, followed, -⟩ := plain_eq_ok_iff.mp (plain_of_path good path).2 reference listed
    exact ⟨proof, follow_eq_ok_iff.mp followed⟩
  · intro n found path
    exact (plain_of_path good path).1

theorem plain_of_delegated (delegated : Delegated answer c.keys c.maxDepth c.now t) {n : Nat}
    {child : Token} (path : Path answer t n child) : answer.plain c (n + 1) child = .ok () := by
  generalize deep : n + 1 = depth
  induction depth, child using Lookup.plain.induct c generalizing n with
  | case1 depth child ih =>
    rw [plain_eq_ok_iff]
    intro reference listed
    obtain ⟨proof, resolved, supports⟩ := delegated.supported path reference listed
    -- The path to the proof is within the limit, so the recursion gets below it.
    have further := path.proof listed resolved
    have within := delegated.short further
    exact ⟨by omega, proof, follow_eq_ok_iff.mpr ⟨resolved, supports⟩,
      ih (by omega) proof further (by omega)⟩

theorem walk_eq_ok_iff (answers : Answers c.resolve answer) (identified : Identified answer t)
    (state : σ) :
    (c.walk t state).1 = .ok () ↔ Delegated answer c.keys c.maxDepth c.now t := by
  rw [walk_eq_plain answers identified]
  exact ⟨delegated_of_plain, fun delegated => plain_of_delegated delegated .root⟩

theorem Sample.delegated : Delegated Sample.answer Sample.keys 1 3 leaf := by
  constructor
  · intro n child path reference listed
    rcases path_cases path with ⟨-, rfl⟩ | ⟨-, rfl⟩
    · refine ⟨root, ?_, ⟨rfl, signed_root, rfl, rfl, rfl⟩⟩
      have inlined : ProofReference.parse reference = .ok (.inline reference) := by
        have listed : reference ∈ ["a.", "b."] := listed
        simp only [List.mem_cons, List.not_mem_nil, or_false] at listed
        rcases listed with rfl | rfl <;> rfl
      exact .inline inlined rfl
    · cases listed
  · intro n found path
    rcases path_cases path with ⟨rfl, -⟩ | ⟨rfl, -⟩ <;> omega

/-! ## The order of the proofs -/

/-- The references lead to related tokens, or both to none. -/
structure Correspond (answer other : Lookup) (related : Token → Token → Prop)
    (reference listed : String) : Prop where
  forth : ∀ {proof}, Resolves answer reference proof →
    ∃ twin, Resolves other listed twin ∧ related proof twin
  back : ∀ {twin}, Resolves other listed twin →
    ∃ proof, Resolves answer reference proof ∧ related proof twin

/-- Related tokens differ in nothing that is asked of a proof, and list the same proofs, up to
being related. -/
structure Relisting (keys : KeyResolver) (answer other : Lookup)
    (related : Token → Token → Prop) : Prop where
  issuer : ∀ {t u}, related t u → u.issuer = t.issuer
  audience : ∀ {t u}, related t u → u.audience = t.audience
  notBefore : ∀ {t u}, related t u → u.payload.notBefore = t.payload.notBefore
  expiresAt : ∀ {t u}, related t u → u.payload.expiresAt = t.payload.expiresAt
  signature : ∀ {t u}, related t u →
    (u.checkSignature keys = .ok () ↔ t.checkSignature keys = .ok ())
  forth : ∀ {t u}, related t u → ∀ reference ∈ t.proofs, ∃ listed ∈ u.proofs,
    Correspond answer other related reference listed
  back : ∀ {t u}, related t u → ∀ listed ∈ u.proofs, ∃ reference ∈ t.proofs,
    Correspond answer other related reference listed

/-- The tokens differ at most in how they list their proofs, and so do these. -/
def Relisted (keys : KeyResolver) (answer other : Lookup) (t u : Token) : Prop :=
  ∃ related, Relisting keys answer other related ∧ related t u

variable {other : Lookup} {related : Token → Token → Prop} {u : Token}

theorem Correspond.symm {reference listed : String}
    (correspond : Correspond answer other related reference listed) :
    Correspond other answer (fun u t => related t u) listed reference :=
  ⟨correspond.back, correspond.forth⟩

namespace Relisting

variable {child proof twin : Token}

theorem symm (relisting : Relisting keys answer other related) :
    Relisting keys other answer fun u t => related t u where
  issuer r := (relisting.issuer r).symm
  audience r := (relisting.audience r).symm
  notBefore r := (relisting.notBefore r).symm
  expiresAt r := (relisting.expiresAt r).symm
  signature r := (relisting.signature r).symm
  forth r listed member := by
    obtain ⟨reference, there, correspond⟩ := relisting.back r listed member
    exact ⟨reference, there, correspond.symm⟩
  back r reference member := by
    obtain ⟨listed, there, correspond⟩ := relisting.forth r reference member
    exact ⟨listed, there, correspond.symm⟩

theorem isExpired (relisting : Relisting keys answer other related) (r : related t u) :
    u.isExpired now = t.isExpired now := by
  simp only [Token.isExpired, Payload.isExpired, relisting.expiresAt r]

theorem isTooEarly (relisting : Relisting keys answer other related) (r : related t u) :
    u.isTooEarly now = t.isTooEarly now := by
  simp only [Token.isTooEarly, Payload.isTooEarly, relisting.notBefore r]

theorem supports (relisting : Relisting keys answer other related) {kin : Token}
    (r : related child kin) (s : related proof twin) (good : Supports keys now child proof) :
    Supports keys now kin twin where
  audience := by rw [relisting.audience s, good.audience, relisting.issuer r]
  signature := (relisting.signature s).mpr good.signature
  notExpired := by rw [relisting.isExpired s, good.notExpired]
  notTooEarly := by rw [relisting.isTooEarly s, good.notTooEarly]
  lifetime := by
    have lasts := good.lifetime
    simp only [Token.lifetimeEncompasses, Token.lifetimeBeginsBefore, Token.lifetimeEndsAfter]
      at lasts ⊢
    rwa [relisting.notBefore s, relisting.notBefore r, relisting.expiresAt s, relisting.expiresAt r]

theorem path (relisting : Relisting keys answer other related) (r : related t u) {n : Nat}
    {kin : Token} (path : Path other u n kin) : ∃ child, Path answer t n child ∧ related child kin := by
  induction path with
  | root => exact ⟨t, .root, r⟩
  | @proof n kin twin listed path member resolved ih =>
    obtain ⟨child, met, s⟩ := ih
    obtain ⟨reference, there, correspond⟩ := relisting.back s listed member
    obtain ⟨proof, found, s⟩ := correspond.back resolved
    exact ⟨proof, met.proof there found, s⟩

theorem delegated (relisting : Relisting keys answer other related) (r : related t u)
    (good : Delegated answer keys limit now t) : Delegated other keys limit now u := by
  constructor
  · intro n kin path listed member
    obtain ⟨child, met, s⟩ := relisting.path r path
    obtain ⟨reference, there, correspond⟩ := relisting.back s listed member
    obtain ⟨proof, found, supports⟩ := good.supported met reference there
    obtain ⟨twin, resolved, s'⟩ := correspond.forth found
    exact ⟨twin, resolved, relisting.supports s s' supports⟩
  · intro n kin path
    obtain ⟨child, met, -⟩ := relisting.path r path
    exact good.short met

end Relisting

theorem Relisted.delegated_iff (relisted : Relisted keys answer other t u) :
    Delegated answer keys limit now t ↔ Delegated other keys limit now u := by
  obtain ⟨related, relisting, r⟩ := relisted
  exact ⟨relisting.delegated r, relisting.symm.delegated r⟩

theorem relisted_of_perm (issuer : u.issuer = t.issuer) (audience : u.audience = t.audience)
    (notBefore : u.payload.notBefore = t.payload.notBefore)
    (expiresAt : u.payload.expiresAt = t.payload.expiresAt)
    (signature : u.checkSignature keys = .ok () ↔ t.checkSignature keys = .ok ())
    (listed : t.proofs.Perm u.proofs) : Relisted keys answer answer t u := by
  have self (reference : String) : Correspond answer answer
      (fun proof twin => proof = twin ∨ proof = t ∧ twin = u) reference reference :=
    ⟨fun resolved => ⟨_, resolved, .inl rfl⟩, fun resolved => ⟨_, resolved, .inl rfl⟩⟩
  -- The tokens further down are related to themselves; they may refer back to the first one.
  refine ⟨fun proof twin => proof = twin ∨ proof = t ∧ twin = u, ?_, .inr ⟨rfl, rfl⟩⟩
  constructor <;> rintro first second (rfl | ⟨rfl, rfl⟩)
  all_goals try first | rfl | assumption
  · exact fun reference member => ⟨reference, member, self reference⟩
  · exact fun reference member => ⟨reference, listed.mem_iff.mp member, self reference⟩
  · exact fun reference member => ⟨reference, member, self reference⟩
  · exact fun reference member => ⟨reference, listed.mem_iff.mpr member, self reference⟩

namespace Sample

/-- Who issued the leaf also issued this token, which lists the proofs the other way round. -/
def relisted : Token := token "b" "c" 5 (some ["b.", "a."])
  0x7a148e4fb7feb0ee706912ab4704466bdc2000498a99784f9f221559ba2e263959559094d519a9dcb1ca016e3d541f66471996fc39c81a92dab31c62526b

theorem identified_relisted : Identified Sample.answer relisted := by
  apply identified_of_decode
  · exact eq_ok_of_toOption (by decide +kernel)
  · rw [cid_root]
    decide +kernel

theorem relisted_leaf : Relisted Sample.keys Sample.answer Sample.answer leaf relisted := by
  have signed : relisted.checkSignature Sample.keys = .ok () :=
    eq_ok_of_toOption (by decide +kernel)
  exact relisted_of_perm rfl rfl rfl rfl (iff_of_true signed signed_leaf) (.swap _ _ _)

end Sample

end Ucan.Delegation

namespace Ucan.Validator

open Delegation

variable {σ : Type}

/-- What is accepted, for which reason the rest is not, and that the order of proofs is immaterial
to this. -/
theorem validateWith_exact (v : Validator) {proofs : ProofResolver σ} {answer : Lookup} {t : Token}
    (answers : Answers proofs answer) (identified : Identified answer t) (state : σ)
    (now : UInt64) :
    (v.validateWith proofs state now t = .ok () ↔
      t.checkSignature v.keys = .ok () ∧ (t.isExpired now = false ∧ t.isTooEarly now = false) ∧
        Delegated answer v.keys v.maxDepth now t) ∧
    (∀ e, t.checkSignature v.keys = .error e →
      v.validateWith proofs state now t = .error (.signature e)) ∧
    (t.checkSignature v.keys = .ok () → t.isExpired now = true →
      ∃ expiresAt, t.payload.expiresAt = some expiresAt ∧
        v.validateWith proofs state now t = .error (.expired expiresAt now)) ∧
    (t.checkSignature v.keys = .ok () → t.isExpired now = false → t.isTooEarly now = true →
      ∃ notBefore, t.payload.notBefore = some notBefore ∧
        v.validateWith proofs state now t = .error (.tooEarly notBefore now)) ∧
    (t.checkSignature v.keys = .ok () → t.isExpired now = false → t.isTooEarly now = false →
      ¬ Delegated answer v.keys v.maxDepth now t →
      ∃ e, v.validateWith proofs state now t = .error (.chain e)) ∧
    (∀ {τ : Type} {others : ProofResolver τ} {other : Lookup} {u : Token}, Answers others other →
      Identified other u → Relisted v.keys answer other t u → ∀ start,
      (v.validateWith others start now u = .ok () ↔ v.validateWith proofs state now t = .ok ())) := by
  have walked := walk_eq_ok_iff (c := ⟨proofs, v.keys, v.maxDepth, now⟩) answers identified state
  refine ⟨?_, ?_, ?_, ?_, ?_, ?_⟩
  · rw [validateWith_eq_ok_iff, walked]
  · exact fun e failed => validateWith_of_signature failed
  · intro signed expired
    obtain ⟨expiresAt, known, failed⟩ := checkTime_of_expired expired
    exact ⟨expiresAt, known, validateWith_of_time signed failed⟩
  · intro signed active early
    obtain ⟨notBefore, known, failed⟩ := checkTime_of_tooEarly active early
    exact ⟨notBefore, known, validateWith_of_time signed failed⟩
  · intro signed active begun unsupported
    rw [← walked] at unsupported
    cases found : (Context.walk ⟨proofs, v.keys, v.maxDepth, now⟩ t state).1 with
    | ok done => exact absurd found unsupported
    | error e => exact ⟨e, validateWith_of_chain signed active begun found⟩
  · intro τ others other u otherAnswers otherIdentified relisted start
    have otherWalked := walk_eq_ok_iff (c := ⟨others, v.keys, v.maxDepth, now⟩) otherAnswers
      otherIdentified start
    rw [validateWith_eq_ok_iff, validateWith_eq_ok_iff, walked, otherWalked,
      relisted.delegated_iff]
    obtain ⟨related, relisting, r⟩ := relisted
    rw [relisting.signature r, relisting.isExpired r, relisting.isTooEarly r]

theorem validateWith_leaf_exact :
    let v : Validator := ⟨1, Sample.keys⟩
    let proofs := ProofResolver.ofFunction Sample.answer
    Answers proofs Sample.answer ∧ Identified Sample.answer Sample.leaf ∧
      Identified Sample.answer Sample.relisted ∧
      Relisted v.keys Sample.answer Sample.answer Sample.leaf Sample.relisted ∧
      v.validateWith proofs () 3 Sample.leaf = .ok () ∧
      v.validateWith proofs () 3 Sample.relisted = .ok () := by
  intro v proofs
  have answers : Answers proofs Sample.answer := answers_ofFunction _
  obtain ⟨accepted, -, -, -, -, order⟩ := validateWith_exact v answers Sample.identified () 3
  have valid := accepted.mpr ⟨Sample.signed_leaf, ⟨rfl, rfl⟩, Sample.delegated⟩
  have again := (order answers Sample.identified_relisted Sample.relisted_leaf ()).mpr valid
  exact ⟨answers, Sample.identified, Sample.identified_relisted, Sample.relisted_leaf, valid, again⟩

end Ucan.Validator
