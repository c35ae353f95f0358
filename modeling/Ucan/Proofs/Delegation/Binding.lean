import Ucan.Proofs.Delegation.Soundness

/-!
Which tokens a walk accepts for the references it follows, when nothing is known of the resolver: an
identifier leads to a token that has it. A reference that is a token itself is left to the resolver.
-/

set_option autoImplicit false

namespace Ucan

/-- The token is the one that the reference denotes. -/
inductive Denotes (reference : String) (proof : Token) : Prop where
  | inline (parsed : ProofReference.parse reference = .ok (.inline reference))
      (same : proof.encode = reference)
  | cid {id : Cid} {h : HashAlgorithm} (parsed : ProofReference.parse reference = .ok (.cid id))
      (known : id.hasher? = some h) (same : proof.cid h = id)

theorem ProofReference.eq_of_parse_inline {reference text : String}
    (parsed : parse reference = .ok (.inline text)) : text = reference := by
  unfold parse at parsed
  repeat' split at parsed
  all_goals cases parsed
  rfl

namespace ProofResolver

variable {σ : Type}

/-- What the resolver answers in a state. -/
def answerIn (resolve : ProofResolver σ) (state : σ) : Delegation.Lookup :=
  fun reference => (resolve reference state).1

/-- A reference that is a token itself is answered with this token, if at all. -/
def ReadsInline (resolve : ProofResolver σ) : Prop :=
  ∀ text state proof, resolve.answerIn state (.inline text) = .ok proof → proof.encode = text

/-- The reference is a token itself, and the resolver answers it with another one. -/
structure Substitutes (resolve : ProofResolver σ) (reference : String) (proof : Token) : Prop where
  parsed : ProofReference.parse reference = .ok (.inline reference)
  answered : ∃ state, resolve.answerIn state (.inline reference) = .ok proof
  other : proof.encode ≠ reference

theorem readsInline_ofFunction {answer : Delegation.Lookup}
    (inline : ∀ text, answer (.inline text) = (ProofReference.inline text).resolveInline) :
    ReadsInline (.ofFunction answer) := by
  intro text state proof answered
  change answer (.inline text) = .ok proof at answered
  rw [inline, ProofReference.resolveInline] at answered
  split at answered <;> cases answered
  next found => exact Token.encode_of_decodeWithin found

theorem readsInline_resolveInline : ReadsInline (.ofFunction ProofReference.resolveInline) :=
  readsInline_ofFunction fun _ => rfl

theorem readsInline_store (store : ProofStore) : ReadsInline (.ofFunction store.resolve) :=
  readsInline_ofFunction fun _ => rfl

end ProofResolver

namespace Delegation

open ProofResolver

variable {σ : Type} {c : Context σ} {w after : Walk σ} {link other : Link}
  {t proof found : Token} {state : σ} {reference : String}

theorem Resolves.denotes {resolve : ProofResolver σ}
    (resolved : Resolves (resolve.answerIn state) reference proof) :
    Denotes reference proof ∨ Substitutes resolve reference proof := by
  cases resolved with
  | @inline text parsed answered =>
    cases ProofReference.eq_of_parse_inline parsed
    by_cases same : proof.encode = reference
    · exact .inl (.inline parsed same)
    · exact .inr ⟨parsed, ⟨state, answered⟩, same⟩
  | cid parsed known _ same => exact .inl (.cid parsed known same)

/-! ## What is accepted in a turn -/

/-- The token was found good as the proof that the link leads to. -/
def Walk.Accepted (w : Walk σ) (link : Link) (proof : Token) : Prop :=
  .accept link.depth link.reference link.child proof ∈ w.steps

@[simp] theorem Walk.accepted_with_pending (pending : List Link) :
    { w with pending }.Accepted link proof ↔ w.Accepted link proof := Iff.rfl

@[simp] theorem Walk.accepted_enter {depth : Nat} :
    (w.enter found depth).Accepted link proof ↔ w.Accepted link proof := by
  simp only [Walk.enter]
  split
  · rfl
  · simp [Walk.Accepted, Walk.push, Walk.record]

theorem Walk.mem_pending_enter {depth : Nat} (member : link ∈ w.pending) :
    link ∈ (w.enter found depth).pending := by
  simp only [Walk.enter]
  split
  · exact member
  · exact Walk.mem_pending_push.mpr (.inr member)

namespace Context

theorem accepted_find : (c.find other w).2.Accepted link proof ↔ w.Accepted link proof := by
  unfold find
  split
  · rfl
  · simp [Walk.Accepted, Walk.record]

/-- Only the proof of the link that was followed is new. -/
theorem accepted_of_follow (followed : c.follow other w = (.ok found, after)) :
    after.Accepted link proof ↔ (link = other ∧ proof = found) ∨ w.Accepted link proof := by
  obtain ⟨searched, located, -, rfl⟩ := follow_eq_ok_iff.mp followed
  have kept : (c.find other w).2.Accepted link proof ↔ w.Accepted link proof := accepted_find
  rw [located] at kept
  rw [← kept]
  obtain ⟨child, reference, depth⟩ := link
  obtain ⟨otherChild, otherReference, otherDepth⟩ := other
  simp only [Walk.Accepted, Walk.record, List.mem_cons, Step.accept.injEq, Link.mk.injEq]
  tauto

theorem accepted_of_follow_error {e : ChainError} (failed : c.follow other w = (.error e, after)) :
    after.Accepted link proof ↔ w.Accepted link proof := by
  have kept : (c.find other w).2.Accepted link proof ↔ w.Accepted link proof := accepted_find
  unfold follow at failed
  split at failed
  next located =>
    cases failed
    rwa [located] at kept
  next located =>
    split at failed <;> cases failed
    rwa [located] at kept

theorem accepted_of_done {outcome : Outcome σ Unit} (turned : c.turn w = .done outcome) :
    outcome.2.Accepted link proof ↔ w.Accepted link proof := by
  unfold turn at turned
  split at turned
  · cases turned
    rfl
  next front rest pending =>
    split at turned
    · cases turned
      rfl
    · split at turned <;> cases turned
      next failed => exact accepted_of_follow_error (w := { w with pending := rest }) failed

theorem find_eq_answerIn (c : Context σ) (link : Link) (w : Walk σ) :
    (c.find link w).1 = (c.resolve.answerIn w.resolver).find link.reference := by
  cases parsed : ProofTarget.parse link.reference <;>
    simp [find, Lookup.find, parsed, answerIn]

theorem resolves_of_follow (followed : c.follow link w = (.ok proof, after)) :
    ∃ state, Resolves (c.resolve.answerIn state) link.reference proof := by
  obtain ⟨searched, located, -, -⟩ := follow_eq_ok_iff.mp followed
  have found := find_eq_answerIn c link w
  rw [located] at found
  exact ⟨w.resolver, find_eq_ok_iff.mp found.symm⟩

/-! ## What is accepted in a walk -/

theorem accepted_run (accepted : w.Accepted link proof) : (c.run w).2.Accepted link proof := by
  induction w using run.induct c with
  | case1 w outcome turned =>
    rw [run_of_done turned]
    exact (accepted_of_done turned).mpr accepted
  | case2 w next turned ih =>
    obtain ⟨front, rest, new, after, -, -, followed, rfl⟩ := exists_of_turn turned
    rw [run_of_next turned]
    apply ih
    rw [Walk.accepted_enter, accepted_of_follow followed]
    exact .inr accepted

/-- Nothing is accepted but what the resolver answered at some time. -/
theorem resolves_of_run
    (before : ∀ link proof, w.Accepted link proof →
      ∃ state, Resolves (c.resolve.answerIn state) link.reference proof)
    (accepted : (c.run w).2.Accepted link proof) :
    ∃ state, Resolves (c.resolve.answerIn state) link.reference proof := by
  -- A turn adds one proof to the record, and this was answered in the state before the turn.
  induction w using run.induct c with
  | case1 w outcome turned =>
    rw [run_of_done turned, accepted_of_done turned] at accepted
    exact before link proof accepted
  | case2 w next turned ih =>
    obtain ⟨front, rest, new, after, -, -, followed, rfl⟩ := exists_of_turn turned
    rw [run_of_next turned] at accepted
    apply ih _ accepted
    intro other found met
    rw [Walk.accepted_enter, accepted_of_follow followed] at met
    rcases met with ⟨rfl, rfl⟩ | met
    · exact resolves_of_follow followed
    · exact before other found met

/-- A walk that ends well has accepted a proof for each link. -/
theorem exists_accepted_of_run (good : (c.run w).1 = .ok ()) (member : link ∈ w.pending) :
    ∃ proof, (c.run w).2.Accepted link proof := by
  -- The first link is accepted in this turn and stays so; the others are still to be followed.
  induction w using run.induct c with
  | case1 w outcome turned =>
    rw [run_of_done turned] at good
    rw [pending_of_done turned good] at member
    cases member
  | case2 w next turned ih =>
    obtain ⟨front, rest, new, after, pending, -, followed, rfl⟩ := exists_of_turn turned
    have kept := c.pending_follow front { w with pending := rest }
    simp only [followed] at kept
    rw [run_of_next turned] at good ⊢
    rw [pending, List.mem_cons] at member
    rcases member with rfl | later
    · have accepted := (accepted_of_follow followed).mpr (.inl ⟨rfl, rfl⟩)
      exact ⟨new, accepted_run (Walk.accepted_enter.mpr accepted)⟩
    · exact ih good (Walk.mem_pending_enter (kept ▸ later))

theorem resolves_of_walk (accepted : (c.walk t state).2.Accepted link proof) :
    ∃ state, Resolves (c.resolve.answerIn state) link.reference proof := by
  refine resolves_of_run (fun other found met => ?_) accepted
  simp [Walk.Accepted, Walk.start, Walk.push] at met

theorem exists_accepted_of_walk (good : (c.walk t state).1 = .ok ())
    (listed : reference ∈ t.proofs) :
    ∃ proof, (c.walk t state).2.Accepted ⟨t, reference, 1⟩ proof :=
  exists_accepted_of_run good (Walk.mem_pending_push.mpr (.inl ⟨reference, listed, rfl⟩))

end Context

/-- The proofs of a good walk are those that the references denote, with one exception: the resolver
may put another token in the place of one that a reference holds itself. -/
theorem accepted_denotes_or_substituted (good : (c.walk t state).1 = .ok ()) :
    (∀ reference ∈ t.proofs, ∃ proof, (c.walk t state).2.Accepted ⟨t, reference, 1⟩ proof) ∧
    (∀ link proof, (c.walk t state).2.Accepted link proof →
      Denotes link.reference proof ∨ Substitutes c.resolve link.reference proof) ∧
    (c.resolve.ReadsInline → ∀ link proof, (c.walk t state).2.Accepted link proof →
      Denotes link.reference proof) := by
  have bound : ∀ link proof, (c.walk t state).2.Accepted link proof →
      Denotes link.reference proof ∨ Substitutes c.resolve link.reference proof := by
    intro link proof accepted
    obtain ⟨asked, resolved⟩ := Context.resolves_of_walk accepted
    exact resolved.denotes
  refine ⟨fun reference listed => Context.exists_accepted_of_walk good listed, bound, ?_⟩
  intro reads link proof accepted
  rcases bound link proof accepted with denotes | ⟨-, ⟨asked, answered⟩, other⟩
  · exact denotes
  · exact absurd (reads _ asked proof answered) other

theorem Sample.walk_leaf : (context.walk leaf ()).1 = .ok () :=
  (walk_eq_ok_iff (c := context) (answers_ofFunction _) identified ()).mpr delegated

theorem accepted_denotes_or_substituted_of_leaf :
    (Sample.context.walk Sample.leaf ()).1 = .ok () ∧
      (∃ proof, (Sample.context.walk Sample.leaf ()).2.Accepted ⟨Sample.leaf, "a.", 1⟩ proof) ∧
      ∀ link proof, (Sample.context.walk Sample.leaf ()).2.Accepted link proof →
        Denotes link.reference proof ∨ Substitutes Sample.context.resolve link.reference proof :=
  have bound := accepted_denotes_or_substituted Sample.walk_leaf
  ⟨Sample.walk_leaf, bound.1 "a." List.mem_cons_self, bound.2.1⟩

/-- A resolver that answers all references with one token has it accepted for each of them. -/
theorem not_accepted_denotes :
    ¬ ∀ (c : Context Unit) (t : Token), (c.walk t ()).1 = .ok () →
      ∀ link proof, (c.walk t ()).2.Accepted link proof → Denotes link.reference proof := by
  intro claim
  obtain ⟨proof, accepted⟩ := Context.exists_accepted_of_walk Sample.walk_leaf
    (show "a." ∈ Sample.leaf.proofs from List.mem_cons_self)
  have denotes := claim Sample.context Sample.leaf Sample.walk_leaf _ proof accepted
  obtain ⟨asked, resolved⟩ := Context.resolves_of_walk accepted
  have inlined : ProofReference.parse "a." = .ok (.inline "a.") := rfl
  have same : proof = Sample.root := by
    cases resolved with
    | inline _ answered => exact (Except.ok.inj answered).symm
    | cid _ _ answered _ => exact (Except.ok.inj answered).symm
  subst same
  cases denotes with
  | inline _ same =>
    have other : Sample.root.encode ≠ "a." := by decide +kernel
    exact other same
  | cid parsed _ _ =>
    rw [inlined] at parsed
    cases parsed

end Delegation

end Ucan
