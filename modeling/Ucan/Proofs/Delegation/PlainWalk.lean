import Ucan.Proofs.Delegation.Graph

/-!
The record of the tokens whose proofs were walked through spares work, and nothing else: without it
the result is the same.
-/

set_option autoImplicit false

namespace Ucan.Delegation

variable {σ : Type} {answer : Lookup} {c : Context σ} {t : Token}

/-! ## The walk without a record -/

/-- Each proof of a token is followed in turn, and below it the proofs that it has itself. -/
def Lookup.plain (answer : Lookup) (c : Context σ) (depth : Nat) (child : Token) :
    Except ChainError Unit :=
  forM child.proofs fun reference =>
    if c.maxDepth < depth then .error (.tooDeep c.maxDepth)
    else do
      let proof ← answer.follow c.keys c.now child reference
      answer.plain c (depth + 1) proof
termination_by c.maxDepth + 1 - depth

def Lookup.plainLink (answer : Lookup) (c : Context σ) (link : Link) : Except ChainError Unit :=
  if c.maxDepth < link.depth then .error (.tooDeep c.maxDepth)
  else do
    let proof ← answer.follow c.keys c.now link.child link.reference
    answer.plain c (link.depth + 1) proof

theorem plain_eq_forM (depth : Nat) (child : Token) :
    answer.plain c depth child =
      forM (child.proofs.map (⟨child, ·, depth⟩)) (answer.plainLink c) := by
  rw [Lookup.plain, List.forM_map]
  rfl

theorem plainLink_eq_ok_iff {link : Link} :
    answer.plainLink c link = .ok () ↔ link.depth ≤ c.maxDepth ∧ ∃ proof,
      answer.follow c.keys c.now link.child link.reference = .ok proof ∧
        answer.plain c (link.depth + 1) proof = .ok () := by
  unfold Lookup.plainLink
  by_cases deep : c.maxDepth < link.depth
  · simp [deep, Nat.not_le.mpr deep]
  · simp [deep, Nat.not_lt.mp deep, bind_eq_ok]

theorem plain_eq_ok_iff {depth : Nat} {child : Token} :
    answer.plain c depth child = .ok () ↔ ∀ reference ∈ child.proofs, depth ≤ c.maxDepth ∧
      ∃ proof, answer.follow c.keys c.now child reference = .ok proof ∧
        answer.plain c (depth + 1) proof = .ok () := by
  rw [plain_eq_forM, List.forM_map, forM_eq_ok_iff]
  simp only [plainLink_eq_ok_iff]

theorem plainLink_of_follow {link : Link} {proof : Token} (within : link.depth ≤ c.maxDepth)
    (followed : answer.follow c.keys c.now link.child link.reference = .ok proof) :
    answer.plainLink c link = answer.plain c (link.depth + 1) proof := by
  rw [Lookup.plainLink, if_neg (Nat.not_lt.mpr within), followed]
  rfl

theorem plain_of_deeper {depth higher : Nat} {child : Token} (above : higher ≤ depth)
    (good : answer.plain c depth child = .ok ()) : answer.plain c higher child = .ok () := by
  induction depth, child using Lookup.plain.induct c generalizing higher with
  | case1 depth child ih =>
    rw [plain_eq_ok_iff] at good ⊢
    intro reference listed
    obtain ⟨within, proof, followed, below⟩ := good reference listed
    -- The links are the same at either depth, and only the distance to the limit differs.
    exact ⟨by omega, proof, followed, ih (by omega) proof (by omega) below⟩

/-! ## What a walk keeps -/

/-- What holds of a walk from this token at any time. -/
structure Coherent (answer : Lookup) (c : Context σ) (t : Token) (w : Walk σ) : Prop where
  -- Only references of tokens that were met are left to be followed.
  met : ∀ link ∈ w.pending, link.reference ∈ link.child.proofs ∧ ∃ n, Path answer t n link.child
  ordered : w.pending.Pairwise fun first later => later.depth ≤ first.depth
  -- A token that is on record is free of faults below, or its proofs are still being walked
  -- through, and the fault is to come.
  recorded : ∀ {n last found}, Path answer t n found →
    w.lastDepth? (found.cid .standard) = some last →
    (∀ link ∈ w.pending, last < link.depth → answer.plainLink c link = .ok ()) →
    answer.plain c (last + 1) found = .ok ()

namespace Coherent

variable {w next : Walk σ} {link : Link} {rest : List Link}

theorem depth_le (coherent : Coherent answer c t w) (pending : w.pending = link :: rest) :
    ∀ other ∈ w.pending, other.depth ≤ link.depth := by
  have ordered := coherent.ordered
  rw [pending, List.pairwise_cons] at ordered
  intro other member
  rw [pending, List.mem_cons] at member
  rcases member with rfl | member
  · exact Nat.le_refl _
  · exact ordered.1 other member

theorem plain_of_covers (coherent : Coherent answer c t w) (pending : w.pending = link :: rest)
    {n : Nat} {proof : Token} (path : Path answer t n proof)
    (covered : w.covers (proof.cid .standard) link.depth = true) :
    answer.plain c (link.depth + 1) proof = .ok () := by
  obtain ⟨last, known, above⟩ := Walk.covers_iff.mp covered
  have good : answer.plain c (last + 1) proof = .ok () := by
    apply coherent.recorded path known
    -- The next link is the deepest, so none is left that the record waits for.
    intro other member below
    have := coherent.depth_le pending other member
    omega
  exact plain_of_deeper (by omega) good

theorem pop (coherent : Coherent answer c t w) (pending : w.pending = link :: rest)
    (kept : next.pending = rest) (same : ∀ id, next.lastDepth? id = w.lastDepth? id)
    (good : answer.plainLink c link = .ok ()) : Coherent answer c t next := by
  obtain ⟨met, ordered, recorded⟩ := coherent
  rw [pending] at met ordered recorded
  constructor
  · rw [kept]
    exact fun other member => met other (List.mem_cons_of_mem _ member)
  · rw [kept]
    exact ordered.of_cons
  · intro n last found path known goods
    rw [kept] at goods
    apply recorded path (same _ ▸ known)
    intro other member below
    rcases List.mem_cons.mp member with rfl | member
    · exact good
    · exact goods other member below

theorem plain_of_push {depth last : Nat} {proof : Token} (below : last < depth)
    (good : ∀ other ∈ (w.push proof depth).pending, last < other.depth →
      answer.plainLink c other = .ok ()) : answer.plain c depth proof = .ok () := by
  rw [plain_eq_forM, forM_eq_ok_iff]
  intro other member
  obtain ⟨reference, listed, rfl⟩ := List.mem_map.mp member
  exact good _ (Walk.mem_pending_push.mpr (.inl ⟨reference, listed, rfl⟩)) below

theorem ordered_push (proof : Token) (ordered : w.pending.Pairwise fun first later =>
      later.depth ≤ first.depth) {depth : Nat} (above : ∀ other ∈ w.pending, other.depth ≤ depth) :
    (w.push proof depth).pending.Pairwise fun first later => later.depth ≤ first.depth := by
  rw [Walk.pending_push, List.pairwise_append]
  refine ⟨?_, ordered, ?_⟩
  · exact List.pairwise_map.mpr (List.pairwise_of_forall fun _ _ => Nat.le_refl _)
  · intro first listed later member
    obtain ⟨reference, -, rfl⟩ := List.mem_map.mp listed
    exact above later member

theorem expand (coherent : Coherent answer c t w) (identified : Identified answer t)
    (pending : w.pending = link :: rest) (kept : next.pending = rest)
    (same : ∀ id, next.lastDepth? id = w.lastDepth? id) {n : Nat} {proof : Token}
    (path : Path answer t n proof)
    (leads : answer.plainLink c link = answer.plain c (link.depth + 1) proof) :
    Coherent answer c t
      ((next.record (.expand link.depth (proof.cid .standard))).push proof (link.depth + 1)) := by
  have within := coherent.depth_le pending
  obtain ⟨met, ordered, recorded⟩ := coherent
  rw [pending] at met ordered recorded within
  constructor
  · intro other member
    rcases Walk.mem_pending_push.mp member with ⟨reference, listed, rfl⟩ | member
    · exact ⟨listed, n, path⟩
    · rw [Walk.pending_record, kept] at member
      exact met other (List.mem_cons_of_mem _ member)
  · apply ordered_push
    · rw [Walk.pending_record, kept]
      exact ordered.of_cons
    · intro other member
      rw [Walk.pending_record, kept] at member
      have := within other (List.mem_cons_of_mem _ member)
      omega
  · intro m last found foundPath known good
    rw [Walk.lastDepth?_push, Walk.lastDepth?_expand, same] at known
    by_cases met : proof.cid .standard = found.cid .standard
    · rw [if_pos met, Option.some.injEq] at known
      subst known
      -- The token that is on record now waits for nothing but its own links, which are in front.
      rw [← identified.eq_of_cid path foundPath met]
      exact plain_of_push (Nat.lt_succ_self _) good
    · rw [if_neg met] at known
      apply recorded foundPath known
      intro other member below
      rcases List.mem_cons.mp member with rfl | member
      -- What waited for the link waits for those in its place, as they lie deeper still.
      · rw [leads]
        exact plain_of_push (by omega) good
      · refine good other (Walk.mem_pending_push.mpr (.inr ?_)) below
        rwa [Walk.pending_record, kept]

theorem turn (coherent : Coherent answer c t w) (answers : Answers c.resolve answer)
    (identified : Identified answer t) (turned : c.turn w = .next next) :
    Coherent answer c t next ∧
      forM next.pending (answer.plainLink c) = forM w.pending (answer.plainLink c) := by
  obtain ⟨link, rest, proof, after, pending, within, followed, rfl⟩ := Context.exists_of_turn turned
  have kept := c.pending_follow link { w with pending := rest }
  have same := c.lastDepth?_follow link { w with pending := rest }
  have good := follow_answers answers link { w with pending := rest }
  simp only [followed] at kept same good
  have leads := plainLink_of_follow within good.symm
  obtain ⟨listed, n, path⟩ := coherent.met link (by simp [pending])
  have path : Path answer t (n + 1) proof := path.proof listed (follow_eq_ok_iff.mp good.symm).1
  unfold Walk.enter
  by_cases covered : after.covers (proof.cid .standard) link.depth = true
  -- Either way the link in front stands for the result below its proof.
  · rw [if_pos covered]
    have free : answer.plainLink c link = .ok () := by
      rw [leads]
      apply coherent.plain_of_covers pending path
      rwa [Walk.covers, same] at covered
    refine ⟨coherent.pop pending kept same free, ?_⟩
    rw [pending, kept, List.forM_cons, free]
    rfl
  · rw [if_neg covered]
    refine ⟨coherent.expand identified pending kept same path leads, ?_⟩
    rw [Walk.pending_push, Walk.pending_record, kept, pending, List.forM_append, List.forM_cons,
      leads, plain_eq_forM]

theorem start (identified : Identified answer t) (state : σ) :
    Coherent answer c t (.start t state) := by
  constructor
  · intro link member
    rcases Walk.mem_pending_push.mp member with ⟨reference, listed, rfl⟩ | member
    · exact ⟨listed, 0, .root⟩
    · cases member
  · exact ordered_push t .nil (by simp)
  · intro n last found path known good
    rw [Walk.start, Walk.lastDepth?_push] at known
    -- Only the token itself is on record, and all that is pending are its links.
    by_cases same : t.cid .standard = found.cid .standard
    · obtain rfl := identified.eq_of_cid .root path same
      simp [Walk.lastDepth?] at known
      subst known
      exact plain_of_push (Nat.lt_succ_self 0) good
    · simp [Walk.lastDepth?, same] at known

end Coherent

theorem result_of_turn {w : Walk σ} {outcome : Outcome σ Unit} (answers : Answers c.resolve answer)
    (turned : c.turn w = .done outcome) : outcome.1 = forM w.pending (answer.plainLink c) := by
  unfold Context.turn at turned
  split at turned
  next pending =>
    cases turned
    rw [pending]
    rfl
  next link rest pending =>
    rw [pending, List.forM_cons, Lookup.plainLink]
    by_cases deep : c.maxDepth < link.depth
    · rw [if_pos deep] at turned ⊢
      cases turned
      rfl
    · rw [if_neg deep] at turned ⊢
      rw [← follow_answers answers link { w with pending := rest }]
      split at turned
      next e after followed =>
        cases turned
        rw [followed]
        rfl
      · cases turned

theorem result_of_run {w : Walk σ} (answers : Answers c.resolve answer)
    (identified : Identified answer t) (coherent : Coherent answer c t w) :
    (c.run w).1 = forM w.pending (answer.plainLink c) := by
  induction w using Context.run.induct c with
  | case1 w outcome turned =>
    rw [Context.run_of_done turned]
    exact result_of_turn answers turned
  | case2 w next turned ih =>
    obtain ⟨coherent, same⟩ := coherent.turn answers identified turned
    rw [Context.run_of_next turned, ih coherent, same]

/-- The walk finds what a walk without a record finds, and the very same fault if there is one. -/
theorem walk_eq_plain (answers : Answers c.resolve answer) (identified : Identified answer t)
    (state : σ) : (c.walk t state).1 = answer.plain c 1 t := by
  rw [Context.walk, result_of_run answers identified (.start identified state), plain_eq_forM,
    Walk.start, Walk.pending_push, List.append_nil]

theorem walk_leaf_eq_plain :
    Answers Sample.context.resolve Sample.answer ∧ Identified Sample.answer Sample.leaf ∧
      (Sample.context.walk Sample.leaf ()).1 = Sample.answer.plain Sample.context 1 Sample.leaf :=
  ⟨answers_ofFunction _, Sample.identified,
    walk_eq_plain (answers_ofFunction _) Sample.identified ()⟩

end Ucan.Delegation
