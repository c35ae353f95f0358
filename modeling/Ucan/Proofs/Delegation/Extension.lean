import Mathlib.Data.List.Forall2
import Ucan.Proofs.Delegation.Line
import Ucan.Proofs.Store
import Ucan.Proofs.Terms
import Ucan.Proofs.Validator

/-!
A result that waits neither for a missing proof nor for a greater depth is final: no further proofs
and no greater depth change it.
-/

set_option autoImplicit false

namespace Ucan

/-- More proofs might change the answer. -/
def ResolveError.Open : ResolveError → Prop
  | notFound _ => True
  | _ => False

/-- More proofs or a greater depth might change the result. -/
def ChainError.Open : ChainError → Prop
  | proofNotFound _ => True
  | tooDeep _ => True
  | _ => False

theorem ChainError.open_ofResolve {reference : String} {e : ResolveError} (isOpen : e.Open) :
    (ofResolve reference e).Open := by
  cases e with
  | notFound => trivial
  | invalidReference | malformed | lookup => cases isOpen

namespace Delegation

/-- The first answer is kept, up to what is not enforced, unless it was left open. -/
inductive Kept {ε : Type} (left : ε → Prop) : Except ε Token → Except ε Token → Prop where
  | found {t u : Token} (same : t.SameTerms u) : Kept left (.ok t) (.ok u)
  | failed (e : ε) : Kept left (.error e) (.error e)
  | mended {e : ε} (isOpen : left e) (later : Except ε Token) : Kept left (.error e) later

theorem Kept.refl {ε : Type} (left : ε → Prop) (answer : Except ε Token) :
    Kept left answer answer := by
  cases answer with
  | ok t => exact .found (.refl t)
  | error e => exact .failed e

/-- What is found with the first lookup is found with the second, unless it was left open. -/
def Lookup.Extends (left : ResolveError → Prop) (other answer : Lookup) : Prop :=
  ∀ reference, Kept left (answer reference) (other reference)

/-! ## A single link -/

variable {answer other : Lookup} {keys : KeyResolver} {now : UInt64} {child kin proof twin : Token}
  {reference : String}

theorem admits_of_sameTerms {target : ProofTarget} (same : proof.SameTerms twin) :
    target.admits proof = target.admits twin := by
  unfold ProofTarget.admits
  split
  · rw [same.cid]
  · rfl

theorem checkLink_of_sameTerms (childSame : child.SameTerms kin) (same : proof.SameTerms twin) :
    checkLink keys now reference child proof = checkLink keys now reference kin twin := by
  simp only [checkLink, same.audience, childSame.issuer, same.checkSignature, same.isExpired,
    same.isTooEarly, same.lifetimeEncompasses childSame]

variable {left : ResolveError → Prop} {leftChain : ChainError → Prop}

theorem kept_check {target : ProofTarget} {found later : Except ResolveError Token}
    (chained : ∀ reference e, left e → leftChain (.ofResolve reference e))
    (kept : Kept left found later) :
    Kept leftChain (target.check reference found) (target.check reference later) := by
  cases kept with
  | found same =>
    simp only [ProofTarget.check, ← admits_of_sameTerms same]
    split
    · exact .found same
    · exact .failed _
  | failed e => exact .failed _
  | mended isOpen => exact .mended (chained _ _ isOpen) _

theorem kept_find (chained : ∀ reference e, left e → leftChain (.ofResolve reference e))
    (extended : Lookup.Extends left other answer) (reference : String) :
    Kept leftChain (answer.find reference) (other.find reference) := by
  unfold Lookup.find
  split
  · exact .failed _
  next target _ => exact kept_check chained (extended target.reference)

theorem kept_follow (chained : ∀ reference e, left e → leftChain (.ofResolve reference e))
    (extended : Lookup.Extends left other answer) (childSame : child.SameTerms kin) :
    Kept leftChain (answer.follow keys now child reference)
      (other.follow keys now kin reference) := by
  have kept := kept_find chained extended reference
  unfold Lookup.follow
  generalize answer.find reference = found at kept ⊢
  generalize other.find reference = later at kept ⊢
  cases kept with
  | found same =>
    simp only [bind, Except.bind, ← checkLink_of_sameTerms childSame same]
    split
    · exact .failed _
    · exact .found same
  | failed e => exact .failed e
  | mended isOpen => exact .mended isOpen _

/-! ## Two walks side by side -/

variable {σ τ : Type} {c : Context σ} {d : Context τ} {w next : Walk σ} {v : Walk τ}

structure Link.Same (link mate : Link) : Prop where
  child : link.child.SameTerms mate.child
  reference : link.reference = mate.reference
  depth : link.depth = mate.depth

/-- The same is left to be followed, and the same tokens are on record. -/
structure Abreast (w : Walk σ) (v : Walk τ) : Prop where
  pending : List.Forall₂ Link.Same w.pending v.pending
  lastDepth? : ∀ id, w.lastDepth? id = v.lastDepth? id

/-- The second walk finds what the first one does, unless that was left open, and goes as far down,
or further where the depth is left open. -/
structure Context.Extends (left : ResolveError → Prop) (leftChain : ChainError → Prop)
    (d : Context τ) (c : Context σ) (other answer : Lookup) : Prop where
  answers : Answers c.resolve answer
  otherAnswers : Answers d.resolve other
  lookup : Lookup.Extends left other answer
  chained : ∀ reference e, left e → leftChain (.ofResolve reference e)
  keys : d.keys = c.keys
  now : d.now = c.now
  maxDepth : c.maxDepth ≤ d.maxDepth
  deeper : c.maxDepth < d.maxDepth → leftChain (.tooDeep c.maxDepth)

namespace Abreast

theorem push (same : proof.SameTerms twin) (depth : Nat) (abreast : Abreast w v) :
    Abreast (w.push proof depth) (v.push twin depth) := by
  refine ⟨?_, abreast.lastDepth?⟩
  rw [Walk.pending_push, Walk.pending_push, same.proofs]
  apply List.rel_append _ abreast.pending
  rw [List.forall₂_map_left_iff, List.forall₂_map_right_iff, List.forall₂_same]
  exact fun reference _ => ⟨same, rfl, rfl⟩

theorem enter (same : proof.SameTerms twin) (depth : Nat) (abreast : Abreast w v) :
    Abreast (w.enter proof depth) (v.enter twin depth) := by
  have covered : w.covers (proof.cid .standard) depth = v.covers (twin.cid .standard) depth := by
    rw [Walk.covers, Walk.covers, same.cid, abreast.lastDepth?]
  simp only [Walk.enter, covered]
  split
  · exact abreast
  · apply push same
    refine ⟨abreast.pending, fun id => ?_⟩
    rw [Walk.lastDepth?_expand, Walk.lastDepth?_expand, same.cid, abreast.lastDepth?]

theorem start {t u : Token} (same : t.SameTerms u) (state : σ) (otherState : τ) :
    Abreast (.start t state) (.start u otherState) := by
  refine push same 1 ⟨.nil, fun _ => ?_⟩
  rw [same.cid]
  rfl

end Abreast

namespace Context.Extends

variable {link mate : Link}

theorem follow (extended : Context.Extends left leftChain d c other answer)
    (same : link.Same mate) : Kept leftChain (c.follow link w).1 (d.follow mate v).1 := by
  rw [follow_answers extended.answers, follow_answers extended.otherAnswers, extended.keys,
    extended.now, same.reference]
  exact kept_follow extended.chained extended.lookup same.child

theorem abreast_follow {rest : List Link} {others : List Link} (abreast : Abreast w v)
    (remaining : List.Forall₂ Link.Same rest others) :
    Abreast (c.follow link { w with pending := rest }).2
      (d.follow mate { v with pending := others }).2 := by
  constructor
  · rw [pending_follow, pending_follow]
    exact remaining
  · intro id
    rw [lastDepth?_follow, lastDepth?_follow]
    exact abreast.lastDepth? id

theorem turn (extended : Context.Extends left leftChain d c other answer) (abreast : Abreast w v)
    (turned : c.turn w = .next next) : ∃ after, d.turn v = .next after ∧ Abreast next after := by
  obtain ⟨link, rest, proof, reached, pending, within, followed, rfl⟩ := exists_of_turn turned
  have side := abreast.pending
  rw [pending, List.forall₂_cons_left_iff] at side
  obtain ⟨mate, others, same, remaining, facing⟩ := side
  have kept := extended.follow (w := { w with pending := rest })
    (v := { v with pending := others }) same
  have onward : Abreast (c.follow link { w with pending := rest }).2
      (d.follow mate { v with pending := others }).2 := abreast_follow abreast remaining
  cases again : d.follow mate { v with pending := others } with
  | mk found otherReached =>
    rw [followed, again] at kept onward
    -- The first walk has found its proof, so nothing was left open here.
    cases kept with
    | found alike =>
      have further : mate.depth ≤ d.maxDepth := by
        rw [← same.depth]
        exact within.trans extended.maxDepth
      refine ⟨_, turn_of_follow facing further again, ?_⟩
      rw [← same.depth]
      exact onward.enter alike link.depth

theorem done (extended : Context.Extends left leftChain d c other answer) (abreast : Abreast w v)
    {outcome : Outcome σ Unit} (turned : c.turn w = .done outcome)
    (settled : ∀ e, outcome.1 = .error e → ¬leftChain e) :
    ∃ ended, d.turn v = .done ended ∧ ended.1 = outcome.1 := by
  have side := abreast.pending
  unfold Context.turn at turned
  split at turned
  next pending =>
    cases turned
    rw [pending, List.forall₂_nil_left_iff] at side
    exact ⟨_, turn_of_nil side, rfl⟩
  next link rest pending =>
    rw [pending, List.forall₂_cons_left_iff] at side
    obtain ⟨mate, others, same, remaining, facing⟩ := side
    split at turned
    next deep =>
      cases turned
      -- A greater depth would have been of use.
      have notDeeper : ¬c.maxDepth < d.maxDepth := fun less =>
        settled _ rfl (extended.deeper less)
      have depth : d.maxDepth = c.maxDepth := by
        have := extended.maxDepth
        omega
      have alsoDeep : d.maxDepth < mate.depth := by
        rw [depth, ← same.depth]
        exact deep
      exact ⟨_, turn_of_deep facing alsoDeep, by rw [depth]⟩
    next within =>
      have kept := extended.follow (w := { w with pending := rest })
        (v := { v with pending := others }) same
      have further : ¬d.maxDepth < mate.depth := by
        rw [← same.depth]
        exact fun deep => within (Nat.lt_of_le_of_lt extended.maxDepth deep)
      split at turned <;> cases turned
      next e _ followed =>
        cases again : d.follow mate { v with pending := others } with
        | mk found reached =>
          rw [followed, again] at kept
          cases kept with
          | failed =>
            refine ⟨(.error e, reached), ?_, rfl⟩
            simp only [Context.turn, facing, further, again, if_false]
          | mended isOpen => exact absurd isOpen (settled e rfl)

theorem run (extended : Context.Extends left leftChain d c other answer) (abreast : Abreast w v)
    (settled : ∀ e, (c.run w).1 = .error e → ¬leftChain e) : (d.run v).1 = (c.run w).1 := by
  -- The turns are those of the first walk. The second keeps abreast until the first one ends.
  induction w using run.induct c generalizing v with
  | case1 w outcome turned =>
    rw [run_of_done turned] at settled ⊢
    obtain ⟨ended, again, same⟩ := extended.done abreast turned settled
    rw [run_of_done again, same]
  | case2 w next turned ih =>
    obtain ⟨after, again, onward⟩ := extended.turn abreast turned
    rw [run_of_next turned] at settled ⊢
    rw [run_of_next again]
    exact ih onward settled

theorem walk (extended : Context.Extends left leftChain d c other answer) {t u : Token}
    (same : t.SameTerms u) {state : σ} {otherState : τ}
    (settled : ∀ e, (c.walk t state).1 = .error e → ¬leftChain e) :
    (d.walk u otherState).1 = (c.walk t state).1 :=
  extended.run (.start same state otherState) settled

end Context.Extends

end Delegation

/-! ## Stores -/

namespace ProofStore

open Delegation

variable {first more : List (Token × HashAlgorithm)}

/-- What is put in later replaces only tokens of the same text. -/
theorem extends_insertAll
    (decoded : ∀ f ∈ more, ∃ limit text, Token.decodeWithin limit text = .ok f.1)
    (apart : ∀ e ∈ first, ∀ f ∈ more, e.1.cid f.2 = f.1.cid f.2 → e.1.encode = f.1.encode)
    (candid : ∀ e ∈ first, (∃ f ∈ more, e.1.encode = f.1.encode) → e.1.Candid) :
    Lookup.Extends ResolveError.Open ((empty.insertAll first).insertAll more).resolve
      (empty.insertAll first).resolve := by
  intro reference
  cases reference with
  | inline text => exact .refl _ _
  | cid id =>
    simp only [resolve]
    cases before : (empty.insertAll first).get? id with
    | none => exact .mended trivial _
    | some t =>
      rcases get?_insertAll empty first id with ⟨e, member, filed, found⟩ | missing
      · rcases get?_insertAll (empty.insertAll first) more id with ⟨f, later, same, again⟩ | kept
        · -- The identifier holds the hash function, so both were put in under the same one.
          have hasher : some e.2 = some f.2 := by
            rw [← HashAlgorithm.hasher?_cid e.2 e.1.wire.bytes,
              ← HashAlgorithm.hasher?_cid f.2 f.1.wire.bytes]
            exact congrArg Cid.hasher? (filed.trans same.symm)
          obtain ⟨limit, text, read⟩ := decoded f later
          cases before.symm.trans found
          rw [again]
          have text : e.1.encode = f.1.encode := by
            apply apart e member f later
            rw [same, ← Option.some.inj hasher, filed]
          exact .found ((candid e member ⟨f, later, text⟩).sameTerms read text)
        · rw [kept, before]
          exact .refl _ _
      · rw [before] at missing
        cases missing

end ProofStore

namespace Delegation.Line.Sample

theorem decode_token {settings : List Builder.Setting} {expiresAt : Option UInt64} {signature : Nat}
    (proper : ∀ s ∈ settings, s.Proper)
    (canonical : (token settings expiresAt signature).Canonical)
    (facts : (Builder.ofSettings settings).facts ≠ some .null)
    (shallow : (token settings expiresAt signature).payload.toJson.nesting ≤ Json.maxDepth) :
    let t := token settings expiresAt signature
    Token.decodeWithin t.encode.utf8ByteSize t.encode = .ok t := by
  have sound := Builder.sound_ofSettings proper
  have readable := Did.readable_did Keypair.sample
  refine (canonical.decode_eq (Builder.readable_header _) (Builder.integral_header _)
    (Builder.integral_payload sound) ⟨rfl, nofun, nofun⟩ (Nat.le_refl _)).mpr ?_
  exact (Builder.readable_payload_iff sound readable readable).mpr ⟨facts, shallow⟩

theorem decode_root : Token.decodeWithin root.encode.utf8ByteSize root.encode = .ok root := by
  have obtained : Keypair.sample.did.Obtained := .inr ⟨_, rfl⟩
  apply decode_token
  · simp only [rootSettings, List.forall_mem_cons, List.not_mem_nil, false_imp_iff, implies_true,
      and_true]
    exact ⟨obtained, obtained⟩
  · exact line.first.canonical Keypair.verifies_sample
  · nofun
  · decide +kernel

theorem decode_leaf : Token.decodeWithin leaf.encode.utf8ByteSize leaf.encode = .ok leaf := by
  have obtained : Keypair.sample.did.Obtained := .inr ⟨_, rfl⟩
  apply decode_token
  · simp only [leafSettings, List.forall_mem_cons, List.not_mem_nil, false_imp_iff, implies_true,
      and_true]
    exact ⟨obtained, obtained, trivial, trivial⟩
  · exact (line.next 0 Nat.one_pos).canonical Keypair.verifies_sample
  · nofun
  · decide +kernel

theorem signed_root : root.checkSignature .ofDid = .ok () :=
  line.first.checkSignature Keypair.verifies_sample

theorem signed_leaf : leaf.checkSignature .ofDid = .ok () :=
  (line.next 0 Nat.one_pos).checkSignature Keypair.verifies_sample

theorem validate_leaf {store : ProofStore} {maxDepth : Nat} (deep : 1 ≤ maxDepth)
    (stored : store.get? (root.cid .standard) = some root) :
    Validator.validate ⟨maxDepth, .ofDid⟩ store.resolve 5 leaf = .ok () := by
  have found : ∀ i < 1, store.get? ((tokens i).cid .standard) = some (tokens i) := by
    intro i inside
    obtain rfl : i = 0 := by omega
    exact stored
  have walked := walk_of_follows (c := ⟨.ofFunction store.resolve, .ofDid, maxDepth, 5⟩)
    (answers_ofFunction _) (line.follows (fun _ _ => Keypair.verifies_sample) ⟨rfl, rfl⟩ found) ()
  rw [if_pos deep] at walked
  exact Validator.validateWith_eq_ok_iff.mpr ⟨signed_leaf, ⟨rfl, rfl⟩, walked⟩

/-- The root, made to expire and then with a member of that name, which takes its place in the text. -/
def guarded : Token :=
  { root with
    payload := { root.payload with
      expiresAt := some 7
      extra := Dict.empty.insert "exp" .null } }

theorem sign_guarded :
    (Token.ofParts guarded.header guarded.payload).sign Keypair.sample.signer = .ok guarded := by
  have members : guarded.payload.toMembers = root.payload.toMembers := by rfl
  obtain ⟨_, _, draft, drafted, signed, -⟩ := line.first.exists_draft
  obtain ⟨-, -, -, signature, given, made⟩ := Token.sign_eq_ok_iff.mp signed
  have wire : (Token.ofParts guarded.header guarded.payload).wire =
      { root.wire with signature := none } := by
    simp only [Token.ofParts, Payload.toJson, members]
    rfl
  have signature_root : root.wire.signature = some signature := congrArg (·.wire.signature) made
  have signedBytes : root.wire.signedBytes = draft.wire.signedBytes :=
    congrArg (·.wire.signedBytes) made
  refine Token.sign_eq_ok_iff.mpr ⟨rfl, rfl, rfl, signature, ?_, ?_⟩
  · rw [wire]
    exact signedBytes ▸ given
  · rw [wire, ← signature_root]
    rfl

theorem validate_leaf_of_guarded {store : ProofStore} {maxDepth : Nat} (deep : 1 ≤ maxDepth)
    (stored : store.get? (root.cid .standard) = some guarded) :
    Validator.validate ⟨maxDepth, .ofDid⟩ store.resolve 5 leaf =
      .error (.chain (.lifetimeExceeded rootId.toString)) := by
  have resolved : Resolves store.resolve rootId.toString guarded := by
    rw [← cid_root]
    refine .cid (Token.parse_toString_cid root .standard) (HashAlgorithm.hasher?_cid _ _) ?_ rfl
    simp only [ProofStore.resolve, stored]
  have checked : checkLink .ofDid 5 rootId.toString leaf guarded =
      .error (.lifetimeExceeded rootId.toString) := by
    have audience : guarded.audience = leaf.issuer := rfl
    have signed : guarded.checkSignature .ofDid = .ok () := signed_root
    have fresh : guarded.isExpired 5 = false := rfl
    have begun : guarded.isTooEarly 5 = false := rfl
    have shorter : guarded.lifetimeEncompasses leaf = false := rfl
    simp [checkLink, audience, signed, fresh, begun, shorter]
  have listed : leaf.proofs = [rootId.toString] := rfl
  have walked := walk_of_follow_error (c := ⟨.ofFunction store.resolve, .ofDid, maxDepth, 5⟩)
    (answers_ofFunction _) listed deep (follow_eq_error resolved checked) ()
  exact Validator.validateWith_of_chain signed_leaf rfl rfl walked

end Delegation.Line.Sample

namespace Validator

open Delegation

/-- Neither a missing proof nor the depth is to blame for the result. -/
def Settled (result : Except ValidationError Unit) : Prop :=
  ∀ e, result = .error (.chain e) → ¬e.Open

theorem validateWith_of_extends {σ τ : Type} {left : ResolveError → Prop}
    {leftChain : ChainError → Prop} {v u : Validator} {proofs : ProofResolver σ}
    {others : ProofResolver τ} {answer other : Lookup} {now : UInt64} {t twin : Token} {state : σ}
    {otherState : τ}
    (extended : Context.Extends left leftChain ⟨others, u.keys, u.maxDepth, now⟩
      ⟨proofs, v.keys, v.maxDepth, now⟩ other answer)
    (same : t.SameTerms twin)
    (settled : ∀ e, v.validateWith proofs state now t = .error (.chain e) → ¬leftChain e) :
    u.validateWith others otherState now twin = v.validateWith proofs state now t := by
  have keys : u.keys = v.keys := extended.keys
  have signature : u.checkSignature twin = v.checkSignature t := by
    rw [checkSignature, checkSignature, keys, same.checkSignature]
  have time : checkTime now twin = checkTime now t := by
    rw [checkTime, checkTime, same.expiresAt, same.notBefore]
  simp only [validateWith, signature, time] at settled ⊢
  cases signed : v.checkSignature t with
  | error e => rfl
  | ok _ =>
    cases timely : checkTime now t with
    | error e => rfl
    | ok _ =>
      rw [signed, timely] at settled
      have walked : (Context.walk ⟨others, u.keys, u.maxDepth, now⟩ twin otherState).1 =
          (Context.walk ⟨proofs, v.keys, v.maxDepth, now⟩ t state).1 := by
        apply extended.walk same
        intro e failed
        apply settled e
        rw [failed]
        rfl
      simp only [walked]

/-- More proofs and a greater depth change no settled result, as long as each token that is replaced
enforced what its text says, as tokens do that were read. Proofs that are only looked for in the
references are those of the empty store. -/
theorem validate_of_settled :
    (∀ (keys : KeyResolver) (maxDepth deeper : Nat) (first more : List (Token × HashAlgorithm))
      (now : UInt64) (t : Token), maxDepth ≤ deeper →
      (∀ f ∈ more, ∃ limit text, Token.decodeWithin limit text = .ok f.1) →
      (∀ e ∈ first, ∀ f ∈ more, e.1.cid f.2 = f.1.cid f.2 → e.1.encode = f.1.encode) →
      (∀ e ∈ first, (∃ f ∈ more, e.1.encode = f.1.encode) → e.1.Candid) →
      Settled (validate ⟨maxDepth, keys⟩ (ProofStore.empty.insertAll first).resolve now t) →
      validate ⟨deeper, keys⟩ ((ProofStore.empty.insertAll first).insertAll more).resolve now t =
        validate ⟨maxDepth, keys⟩ (ProofStore.empty.insertAll first).resolve now t) ∧
    ∀ (v : Validator) (now : UInt64) (t : Token),
      v.validate ProofReference.resolveInline now t =
        v.validate ProofStore.empty.resolve now t := by
  constructor
  · intro keys maxDepth deeper first more now t within decoded apart candid settled
    have extended := ProofStore.extends_insertAll decoded apart candid
    exact validateWith_of_extends ⟨answers_ofFunction _, answers_ofFunction _, extended,
      fun _ _ => ChainError.open_ofResolve, rfl, rfl, within, fun _ => trivial⟩ (.refl t) settled
  · intro v now t
    have same : ProofReference.resolveInline = ProofStore.empty.resolve := by
      funext reference
      cases reference <;> rfl
    rw [same]

open Delegation.Line.Sample in
/-- The root is put in once more, and the leaf that it is the proof of as well. -/
theorem validate_leaf_of_settled :
    let first := [(root, HashAlgorithm.standard)]
    let more := [(leaf, HashAlgorithm.standard), (root, HashAlgorithm.standard)]
    (∀ f ∈ more, ∃ limit text, Token.decodeWithin limit text = .ok f.1) ∧
      (∀ e ∈ first, ∀ f ∈ more, e.1.cid f.2 = f.1.cid f.2 → e.1.encode = f.1.encode) ∧
      (∀ e ∈ first, (∃ f ∈ more, e.1.encode = f.1.encode) → e.1.Candid) ∧
      Settled (validate ⟨1, .ofDid⟩ (ProofStore.empty.insertAll first).resolve 5 leaf) ∧
      validate ⟨8, .ofDid⟩ ((ProofStore.empty.insertAll first).insertAll more).resolve 5 leaf =
        .ok () := by
  intro first more
  have decoded : ∀ f ∈ more, ∃ limit text, Token.decodeWithin limit text = .ok f.1 := by
    intro f member
    rcases List.mem_pair.mp member with rfl | rfl
    · exact ⟨_, _, decode_leaf⟩
    · exact ⟨_, _, decode_root⟩
  have apart : ∀ e ∈ first, ∀ f ∈ more, e.1.cid f.2 = f.1.cid f.2 → e.1.encode = f.1.encode := by
    intro e member f later same
    cases List.mem_singleton.mp member
    rcases List.mem_pair.mp later with rfl | rfl
    · exact distinct 0 (by decide) 1 (by decide) same
    · rfl
  have candid : ∀ e ∈ first, (∃ f ∈ more, e.1.encode = f.1.encode) → e.1.Candid := by
    intro e member _
    cases List.mem_singleton.mp member
    exact Token.candid_of_decodeWithin decode_root
  have stored : (ProofStore.empty.insertAll first).get? (root.cid .standard) = some root :=
    (ProofStore.get?_put _ _ _ _).trans (if_pos rfl)
  have valid : validate ⟨1, .ofDid⟩ (ProofStore.empty.insertAll first).resolve 5 leaf = .ok () :=
    validate_leaf (Nat.le_refl 1) stored
  have settled : Settled
      (validate ⟨1, .ofDid⟩ (ProofStore.empty.insertAll first).resolve 5 leaf) := by
    intro e failed
    cases valid.symm.trans failed
  exact ⟨decoded, apart, candid, settled,
    (validate_of_settled.1 .ofDid 1 8 first more 5 leaf (by decide) decoded apart candid
      settled).trans valid⟩

open Delegation.Line.Sample in
/-- A token that enforces more than its text says makes way for the one that is read from the text,
and what was refused for it is accepted. -/
theorem not_validate_of_settled :
    let first := [(guarded, HashAlgorithm.standard)]
    let more := [(root, HashAlgorithm.standard)]
    let store := ProofStore.empty.insertAll first
    (Token.ofParts guarded.header guarded.payload).sign Keypair.sample.signer = .ok guarded ∧
      Token.decodeWithin guarded.encode.utf8ByteSize guarded.encode = .ok root ∧
      validate ⟨8, .ofDid⟩ store.resolve 5 leaf =
        .error (.chain (.lifetimeExceeded rootId.toString)) ∧
      validate ⟨8, .ofDid⟩ (store.insertAll more).resolve 5 leaf = .ok () ∧
      ¬∀ (keys : KeyResolver) (maxDepth deeper : Nat) (first more : List (Token × HashAlgorithm))
        (now : UInt64) (t : Token), maxDepth ≤ deeper →
        (∀ f ∈ more, ∃ limit text, Token.decodeWithin limit text = .ok f.1) →
        (∀ e ∈ first, ∀ f ∈ more, e.1.cid f.2 = f.1.cid f.2 → e.1.encode = f.1.encode) →
        Settled (validate ⟨maxDepth, keys⟩ (ProofStore.empty.insertAll first).resolve now t) →
        validate ⟨deeper, keys⟩ ((ProofStore.empty.insertAll first).insertAll more).resolve now t =
          validate ⟨maxDepth, keys⟩ (ProofStore.empty.insertAll first).resolve now t := by
  intro first more store
  have stored : store.get? (root.cid .standard) = some guarded :=
    (ProofStore.get?_put _ _ _ _).trans (if_pos rfl)
  have replaced : (store.insertAll more).get? (root.cid .standard) = some root :=
    (ProofStore.get?_put _ _ _ _).trans (if_pos rfl)
  have refused : validate ⟨8, .ofDid⟩ store.resolve 5 leaf =
      .error (.chain (.lifetimeExceeded rootId.toString)) :=
    validate_leaf_of_guarded (by decide) stored
  have valid : validate ⟨8, .ofDid⟩ (store.insertAll more).resolve 5 leaf = .ok () :=
    validate_leaf (by decide) replaced
  refine ⟨sign_guarded, decode_root, refused, valid, fun claim => ?_⟩
  have same := claim .ofDid 8 8 first more 5 leaf (Nat.le_refl 8)
    (fun f member => by
      cases List.mem_singleton.mp member
      exact ⟨_, _, decode_root⟩)
    (fun e member f later _ => by
      cases List.mem_singleton.mp member
      cases List.mem_singleton.mp later
      rfl)
    (fun e failed => by
      cases refused.symm.trans failed
      exact id)
  cases valid.symm.trans (same.trans refused)

end Validator

end Ucan
