import Ucan.Delegation.Walk
import Ucan.Proofs.Signer
import Ucan.Proofs.Wire

/-!
The graph that the proofs of a token, the proofs of these, and so on make up, when each reference is
always answered the same.
-/

set_option autoImplicit false

namespace Ucan.Delegation

variable {σ : Type}

abbrev Lookup := ProofReference → Except ResolveError Token

/-- The resolver may keep a state, but its answers do not depend on it. -/
def Answers (resolve : ProofResolver σ) (answer : Lookup) : Prop :=
  ∀ reference state, (resolve reference state).1 = answer reference

theorem answers_ofFunction (answer : Lookup) : Answers (.ofFunction answer) answer :=
  fun _ _ => rfl

/-! ## Links -/

/-- The token is what a reference denotes. -/
inductive Resolves (answer : Lookup) (reference : String) (proof : Token) : Prop where
  | inline {text : String} (parsed : ProofReference.parse reference = .ok (.inline text))
      (answered : answer (.inline text) = .ok proof)
  | cid {id : Cid} {h : HashAlgorithm} (parsed : ProofReference.parse reference = .ok (.cid id))
      (known : id.hasher? = some h) (answered : answer (.cid id) = .ok proof)
      (same : proof.cid h = id)

/-- The proof vouches for the token at this time. -/
structure Supports (keys : KeyResolver) (now : UInt64) (child proof : Token) : Prop where
  audience : proof.audience = child.issuer
  signature : proof.checkSignature keys = .ok ()
  notExpired : proof.isExpired now = false
  notTooEarly : proof.isTooEarly now = false
  lifetime : proof.lifetimeEncompasses child = true

def Lookup.find (answer : Lookup) (reference : String) : Except ChainError Token :=
  match ProofTarget.parse reference with
  | .error e => .error (.ofResolve reference e)
  | .ok target => target.check reference (answer target.reference)

def Lookup.follow (answer : Lookup) (keys : KeyResolver) (now : UInt64) (child : Token)
    (reference : String) : Except ChainError Token := do
  let proof ← answer.find reference
  checkLink keys now reference child proof
  return proof

theorem parse_eq_ok_iff {reference : String} {target : ProofTarget} :
    ProofTarget.parse reference = .ok target ↔
      ProofReference.parse reference = .ok target.reference ∧
        target.reference.hasher = .ok target.hasher := by
  simp only [ProofTarget.parse, bind_eq_ok]
  constructor
  · rintro ⟨found, parsed, h, known, made⟩
    cases made
    exact ⟨parsed, known⟩
  · rintro ⟨parsed, known⟩
    exact ⟨_, parsed, _, known, rfl⟩

theorem check_eq_ok_iff {target : ProofTarget} {reference : String}
    {answer : Except ResolveError Token} {proof : Token} :
    target.check reference answer = .ok proof ↔ answer = .ok proof ∧ target.admits proof := by
  cases answer with
  | error e => simp [ProofTarget.check]
  | ok found =>
    simp only [ProofTarget.check, Except.ok.injEq]
    split
    next admitted =>
      constructor
      · rintro ⟨⟩
        exact ⟨rfl, admitted⟩
      · rintro ⟨rfl, -⟩
        rfl
    next refused =>
      constructor
      · rintro ⟨⟩
      · rintro ⟨rfl, admitted⟩
        exact absurd admitted refused

theorem find_eq_ok_iff {answer : Lookup} {reference : String} {proof : Token} :
    answer.find reference = .ok proof ↔ Resolves answer reference proof := by
  unfold Lookup.find
  constructor
  · intro found
    split at found
    · cases found
    next target parsed =>
      obtain ⟨denoted, known⟩ := parse_eq_ok_iff.mp parsed
      obtain ⟨answered, admitted⟩ := check_eq_ok_iff.mp found
      obtain ⟨reference, hasher⟩ := target
      cases reference with
      | inline text => exact .inline denoted answered
      | cid id =>
        simp only [ProofReference.hasher] at known
        split at known <;> cases known
        next known => exact .cid denoted known answered (by simpa [ProofTarget.admits] using admitted)
  · rintro (@⟨text, denoted, answered⟩ | @⟨id, h, denoted, known, answered, same⟩)
    · have parsed : ProofTarget.parse reference = .ok ⟨.inline text, none⟩ :=
        parse_eq_ok_iff.mpr ⟨denoted, rfl⟩
      rw [parsed]
      exact check_eq_ok_iff.mpr ⟨answered, rfl⟩
    · have parsed : ProofTarget.parse reference = .ok ⟨.cid id, some h⟩ :=
        parse_eq_ok_iff.mpr ⟨denoted, by simp [ProofReference.hasher, known]⟩
      rw [parsed]
      exact check_eq_ok_iff.mpr ⟨answered, by simp [ProofTarget.admits, same]⟩

theorem checkLink_eq_ok_iff {keys : KeyResolver} {now : UInt64} {reference : String}
    {child proof : Token} :
    checkLink keys now reference child proof = .ok () ↔ Supports keys now child proof := by
  constructor
  · intro good
    unfold checkLink at good
    repeat' split at good
    all_goals cases good
    constructor <;> simp_all
  · rintro ⟨audience, signature, notExpired, notTooEarly, lifetime⟩
    simp [checkLink, audience, signature, notExpired, notTooEarly, lifetime]

theorem follow_eq_ok_iff {answer : Lookup} {keys : KeyResolver} {now : UInt64} {child proof : Token}
    {reference : String} :
    answer.follow keys now child reference = .ok proof ↔
      Resolves answer reference proof ∧ Supports keys now child proof := by
  simp only [Lookup.follow, bind_eq_ok, find_eq_ok_iff]
  constructor
  · rintro ⟨found, resolved, ⟨⟩, good, made⟩
    cases made
    exact ⟨resolved, checkLink_eq_ok_iff.mp good⟩
  · rintro ⟨resolved, supports⟩
    exact ⟨proof, resolved, (), checkLink_eq_ok_iff.mpr supports, rfl⟩

theorem follow_eq_error {answer : Lookup} {keys : KeyResolver} {now : UInt64} {child proof : Token}
    {reference : String} {e : ChainError} (resolved : Resolves answer reference proof)
    (failed : checkLink keys now reference child proof = .error e) :
    answer.follow keys now child reference = .error e := by
  rw [Lookup.follow, find_eq_ok_iff.mpr resolved]
  simp only [bind, Except.bind, failed]

theorem find_answers {c : Context σ} {answer : Lookup} (answers : Answers c.resolve answer)
    (link : Link) (w : Walk σ) : (c.find link w).1 = answer.find link.reference := by
  cases parsed : ProofTarget.parse link.reference <;>
    simp [Context.find, Lookup.find, parsed, ← answers _ w.resolver]

theorem follow_answers {c : Context σ} {answer : Lookup} (answers : Answers c.resolve answer)
    (link : Link) (w : Walk σ) :
    (c.follow link w).1 = answer.follow c.keys c.now link.child link.reference := by
  have same := find_answers answers link w
  unfold Context.follow Lookup.follow
  rw [← same]
  obtain ⟨found, after⟩ := c.find link w
  cases found with
  | error e => rfl
  | ok proof =>
    cases checked : checkLink c.keys c.now link.reference link.child proof <;>
      simp [checked, bind, Except.bind, pure, Except.pure]

/-! ## Paths -/

/-- So many references lead from the first token to the second. -/
inductive Path (answer : Lookup) (t : Token) : Nat → Token → Prop where
  | root : Path answer t 0 t
  | proof {n : Nat} {child proof : Token} {reference : String} (path : Path answer t n child)
      (listed : reference ∈ child.proofs) (resolved : Resolves answer reference proof) :
      Path answer t (n + 1) proof

/-- All tokens met from a token on were read from texts, and different texts have different
identifiers. -/
structure Identified (answer : Lookup) (t : Token) : Prop where
  decoded : ∀ {n found}, Path answer t n found →
    ∃ limit text, Token.decodeWithin limit text = .ok found
  distinct : ∀ {m n found other}, Path answer t m found → Path answer t n other →
    found.cid .standard = other.cid .standard → found.encode = other.encode

theorem Identified.eq_of_cid {answer : Lookup} {t found other : Token} {m n : Nat}
    (identified : Identified answer t) (path : Path answer t m found)
    (otherPath : Path answer t n other) (same : found.cid .standard = other.cid .standard) :
    found = other := by
  obtain ⟨limit, text, read⟩ := identified.decoded path
  obtain ⟨otherLimit, otherText, otherRead⟩ := identified.decoded otherPath
  exact Token.eq_of_encode read otherRead (identified.distinct path otherPath same)

/-! ## A token with one proof, listed twice -/

namespace Sample

-- All signatures are made with one key.
def keys : KeyResolver := fun _ => .ok Keypair.sample.publicKey

def token (issuer audience : String) (expiresAt : UInt64) (proofs : Option (List String))
    (signature : Nat) : Token :=
  let t := Token.ofParts ⟨"RS256", "JWT", some "", .empty⟩
    ⟨none, .other "a" issuer, .other "a" audience, some expiresAt, none, none, none, some .empty,
      none, proofs, .empty⟩
  { t with wire := { t.wire with signature := some (Bytes.ofNat 62 signature) } }

def root : Token := token "a" "b" 9 none
  0x7d191be07e07274e789828ff239d5b52c5ce583fe3a6c020241b9e6fdd40894f82e80f84e2bc793fb2857ae714edaa3670b6ee4971223139f9ea720f097a

def leaf : Token := token "b" "c" 5 (some ["a.", "b."])
  0x44d86950b2981a62ab8eeb09d8852d842e397e4f268e791fa6bebeb8ac34abf94bbb7cddc074de98095bcb8fa8e1ed18e1bea55578f85d725dfa34900ec2

def answer : Lookup := fun _ => .ok root

def context : Context Unit := ⟨.ofFunction answer, keys, 1, 3⟩

theorem signed_root : root.checkSignature keys = .ok () :=
  eq_ok_of_toOption (by decide +kernel)

theorem signed_leaf : leaf.checkSignature keys = .ok () :=
  eq_ok_of_toOption (by decide +kernel)

/-- Every reference is answered with the root, and that has no proofs. -/
theorem path_cases {n : Nat} {t found : Token} (path : Path answer t n found) :
    n = 0 ∧ found = t ∨ n = 1 ∧ found = root := by
  induction path with
  | root => exact .inl ⟨rfl, rfl⟩
  | proof path listed resolved ih =>
    rcases ih with ⟨rfl, rfl⟩ | ⟨rfl, rfl⟩
    · rcases resolved with ⟨_, answered⟩ | ⟨_, _, answered, _⟩ <;> cases answered <;>
        exact .inr ⟨rfl, rfl⟩
    · cases listed

theorem decode_leaf : Token.decode leaf.encode = .ok leaf :=
  eq_ok_of_toOption (by decide +kernel)

theorem decode_root : Token.decode root.encode = .ok root :=
  eq_ok_of_toOption (by decide +kernel)

theorem cid_root : root.cid .standard = ⟨Cid.raw, HashAlgorithm.standard.code, Bytes.ofNat 32
    0xb846142cb78fd5072837a5b1f217c3068cfa999d1ac5496acb6931a2a96eefe4⟩ := by
  decide +kernel

theorem cid_ne : leaf.cid .standard ≠ root.cid .standard := by
  rw [cid_root]
  decide +kernel

theorem identified_of_decode {t : Token} (read : Token.decode t.encode = .ok t)
    (apart : t.cid .standard ≠ root.cid .standard) : Identified answer t := by
  constructor
  · intro n found path
    rcases path_cases path with ⟨-, rfl⟩ | ⟨-, rfl⟩
    · exact ⟨_, _, read⟩
    · exact ⟨_, _, decode_root⟩
  · intro m n found other path otherPath same
    rcases path_cases path with ⟨-, rfl⟩ | ⟨-, rfl⟩ <;>
      rcases path_cases otherPath with ⟨-, rfl⟩ | ⟨-, rfl⟩
    · rfl
    · exact absurd same apart
    · exact absurd same.symm apart
    · rfl

theorem identified : Identified answer leaf := identified_of_decode decode_leaf cid_ne

end Sample

end Ucan.Delegation
