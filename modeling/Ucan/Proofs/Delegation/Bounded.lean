import Ucan.Delegation.Walk

/-!
How far a walk can go, whatever it is answered: it comes to an end, asks for no proof beyond the
limit, and walks through the proofs of one token each time further down than before.
-/

set_option autoImplicit false

namespace Ucan

variable {σ : Type}

/-- The state that a resolver is left in by the questions, of which the last one comes first. -/
def ProofResolver.replay (resolve : ProofResolver σ) (lookups : List (Nat × ProofTarget))
    (state : σ) : σ :=
  lookups.foldr (fun lookup state => (resolve lookup.2.reference state).2) state

namespace Delegation

namespace Walk

/-- What the resolver was asked for and at which depths, the last time first. -/
def lookups (w : Walk σ) : List (Nat × ProofTarget) :=
  w.steps.filterMap fun
    | .lookup depth target => some (depth, target)
    | _ => none

/-- The depths at which the proofs of a token were walked through, the last one first. -/
def expansions (w : Walk σ) (id : Cid) : List Nat :=
  w.steps.filterMap fun
    | .expand depth found => if found = id then some depth else none
    | _ => none

variable {w : Walk σ} {depth : Nat} {id : Cid}

theorem expansions_expand (w : Walk σ) (depth : Nat) (found id : Cid) :
    (w.record (.expand depth found)).expansions id =
      if found = id then depth :: w.expansions id else w.expansions id := by
  by_cases same : found = id <;> simp [expansions, record, same]

theorem mem_expansions_expand {found : Cid} {earlier : Nat} :
    earlier ∈ (w.record (.expand depth found)).expansions id ↔
      (found = id ∧ earlier = depth) ∨ earlier ∈ w.expansions id := by
  rw [expansions_expand]
  by_cases same : found = id <;> simp [same]

theorem expansions_start (t : Token) (state : σ) (id : Cid) :
    (start t state).expansions id = if id = t.cid .standard then [0] else [] := by
  by_cases same : t.cid .standard = id <;> simp [start, expansions, push, same, Ne.symm]

theorem lastDepth?_eq_head? : w.lastDepth? id = (w.expansions id).head? := by
  simp only [expansions, List.head?_filterMap]
  rfl

theorem expansions_lt (descends : (w.expansions id).Pairwise (· > ·))
    (further : w.covers id depth = false) : ∀ earlier ∈ w.expansions id, earlier < depth := by
  rw [covers, lastDepth?_eq_head?] at further
  cases known : w.expansions id with
  | nil => simp
  | cons last earlier =>
    rw [known] at descends further
    have deeper : last < depth := by simpa using further
    have before := (List.pairwise_cons.mp descends).1
    exact List.forall_mem_cons.mpr
      ⟨deeper, fun other member => Nat.lt_trans (before other member) deeper⟩

end Walk

/-! ## What a walk keeps -/

/-- What holds of a walk from the token and the state of the resolver at any time. -/
structure Bounded (c : Context σ) (t : Token) (state : σ) (w : Walk σ) : Prop where
  -- Depth 0 is that of the token itself, to which no link leads.
  positive : ∀ link ∈ w.pending, 0 < link.depth
  asked : ∀ lookup ∈ w.lookups, 0 < lookup.1 ∧ lookup.1 ≤ c.maxDepth
  replayed : w.resolver = c.resolve.replay w.lookups state
  descends : ∀ id, (w.expansions id).Pairwise (· > ·)
  inside : ∀ id, ∀ depth ∈ w.expansions id, depth ≤ c.maxDepth
  first : ∀ id, 0 ∈ w.expansions id ↔ id = t.cid .standard

namespace Bounded

variable {c : Context σ} {t proof : Token} {state : σ} {w next : Walk σ} {link : Link}

theorem start (c : Context σ) (t : Token) (state : σ) : Bounded c t state (.start t state) := by
  constructor
  case positive =>
    intro link member
    rcases Walk.mem_pending_push.mp member with ⟨reference, _, same⟩ | member
    next => simp [same]
    next => cases member
  case asked => simp [Walk.start, Walk.lookups, Walk.push]
  case replayed => rfl
  case descends =>
    intro id
    by_cases same : id = t.cid .standard <;> simp [Walk.expansions_start, same]
  case inside =>
    intro id
    by_cases same : id = t.cid .standard <;> simp [Walk.expansions_start, same]
  case first =>
    intro id
    by_cases same : id = t.cid .standard <;> simp [Walk.expansions_start, same]

theorem pop (bounded : Bounded c t state w) {rest : List Link}
    (pending : w.pending = link :: rest) : Bounded c t state { w with pending := rest } := by
  have positive := bounded.positive
  rw [pending, List.forall_mem_cons] at positive
  exact { bounded with positive := positive.2 }

theorem find (bounded : Bounded c t state w) (positive : 0 < link.depth)
    (within : link.depth ≤ c.maxDepth) : Bounded c t state (c.find link w).2 := by
  unfold Context.find
  split
  next => exact bounded
  next target _ =>
    -- The state that the resolver is left in is what the replay makes of the state before.
    have replayed := congrArg (fun state => (c.resolve target.reference state).2) bounded.replayed
    exact { bounded with
      asked := List.forall_mem_cons.mpr ⟨⟨positive, within⟩, bounded.asked⟩
      replayed }

theorem follow (bounded : Bounded c t state w) (positive : 0 < link.depth)
    (within : link.depth ≤ c.maxDepth) : Bounded c t state (c.follow link w).2 := by
  have found := bounded.find positive within
  unfold Context.follow
  split
  next same => simpa only [same] using found
  next same =>
    rw [same] at found
    split
    next => exact found
    next => exact { found with }

theorem expand (bounded : Bounded c t state w) {depth : Nat} {id : Cid} (positive : 0 < depth)
    (within : depth ≤ c.maxDepth) (further : w.covers id depth = false) :
    Bounded c t state ((w.record (.expand depth id)).push proof (depth + 1)) := by
  refine { bounded with
    positive := ?links
    descends := ?descends
    inside := ?inside
    first := ?first }
  case links =>
    intro link member
    rcases Walk.mem_pending_push.mp member with ⟨reference, _, same⟩ | member
    next => simp [same]
    next => exact bounded.positive link member
  case descends =>
    intro other
    change ((w.record (.expand depth id)).expansions other).Pairwise (· > ·)
    rw [Walk.expansions_expand]
    by_cases same : id = other
    next =>
      rw [if_pos same, ← same]
      exact List.pairwise_cons.mpr
        ⟨Walk.expansions_lt (bounded.descends id) further, bounded.descends id⟩
    next => simpa only [if_neg same] using bounded.descends other
  case inside =>
    intro other earlier member
    rcases Walk.mem_expansions_expand.mp member with ⟨_, same⟩ | member
    next => rwa [same]
    next => exact bounded.inside other earlier member
  case first =>
    intro other
    rw [← bounded.first other]
    constructor
    next =>
      intro member
      rcases Walk.mem_expansions_expand.mp member with ⟨_, same⟩ | member
      next => omega
      next => exact member
    next => exact fun member => Walk.mem_expansions_expand.mpr (.inr member)

theorem enter (bounded : Bounded c t state w) {depth : Nat} (positive : 0 < depth)
    (within : depth ≤ c.maxDepth) : Bounded c t state (w.enter proof depth) := by
  simp only [Walk.enter]
  split
  next => exact bounded
  next further => exact bounded.expand positive within (Bool.eq_false_iff.mpr further)

theorem turn (bounded : Bounded c t state w) (turned : c.turn w = .next next) :
    Bounded c t state next := by
  obtain ⟨link, rest, proof, after, pending, within, followed, rfl⟩ := Context.exists_of_turn turned
  have positive := bounded.positive link (by simp [pending])
  have bounded := (bounded.pop pending).follow positive within
  rw [followed] at bounded
  exact bounded.enter positive within

theorem done (bounded : Bounded c t state w) {outcome : Outcome σ Unit}
    (turned : c.turn w = .done outcome) : Bounded c t state outcome.2 := by
  unfold Context.turn at turned
  split at turned
  next =>
    cases turned
    exact bounded
  next link rest pending =>
    split at turned
    next =>
      cases turned
      exact bounded
    next shallow =>
      have positive := bounded.positive link (by simp [pending])
      have bounded := (bounded.pop pending).follow positive (Nat.not_lt.mp shallow)
      split at turned
      next failed =>
        cases turned
        rwa [failed] at bounded
      next => cases turned

theorem run (bounded : Bounded c t state w) : Bounded c t state (c.run w).2 := by
  induction w using Context.run.induct c with
  | case1 w outcome turned =>
    rw [Context.run_of_done turned]
    exact bounded.done turned
  | case2 w next turned ih =>
    rw [Context.run_of_next turned]
    exact ih (bounded.turn turned)

end Bounded

/-! ## The whole walk -/

namespace Context

variable {c : Context σ}

/-- So many turns, unless the walk is done before. -/
def turns (c : Context σ) : Nat → Walk σ → Turn σ
  | 0, w => .next w
  | n + 1, w =>
    match c.turn w with
    | .done outcome => .done outcome
    | .next w => c.turns n w

theorem exists_turns (w : Walk σ) : ∃ n, c.turns n w = .done (c.run w) := by
  induction w using run.induct c with
  | case1 w outcome turned =>
    refine ⟨1, ?_⟩
    simp only [turns, turned, run_of_done turned]
  | case2 w next turned ih =>
    obtain ⟨n, done⟩ := ih
    refine ⟨n + 1, ?_⟩
    simp only [turns, turned, done, run_of_next turned]

end Context

theorem length_le_of_descends {depths : List Nat} (low high : Nat)
    (descends : depths.Pairwise (· > ·)) (inside : ∀ depth ∈ depths, low ≤ depth ∧ depth < high) :
    depths.length ≤ high - low := by
  induction depths generalizing high with
  | nil => simp
  | cons depth earlier ih =>
    obtain ⟨before, descends⟩ := List.pairwise_cons.mp descends
    obtain ⟨here, inside⟩ := List.forall_mem_cons.mp inside
    have shorter := ih depth descends fun other member =>
      ⟨(inside other member).1, before other member⟩
    simp only [List.length_cons]
    omega

theorem Bounded.length_expansions_le {c : Context σ} {t : Token} {state : σ} {w : Walk σ}
    (bounded : Bounded c t state w) (id : Cid) :
    (w.expansions id).length ≤ c.maxDepth + if id = t.cid .standard then 1 else 0 := by
  by_cases root : id = t.cid .standard
  next =>
    rw [if_pos root]
    exact length_le_of_descends 0 _ (bounded.descends id) fun depth member =>
      ⟨Nat.zero_le _, Nat.lt_succ_of_le (bounded.inside id depth member)⟩
  next =>
    rw [if_neg root]
    refine length_le_of_descends 1 (c.maxDepth + 1) (bounded.descends id) fun depth member => ?_
    have deeper : depth ≠ 0 := fun zero => root ((bounded.first id).mp (zero ▸ member))
    exact ⟨Nat.pos_of_ne_zero deeper, Nat.lt_succ_of_le (bounded.inside id depth member)⟩

/-- Whatever the resolver answers, and however its answers change, the walk is done after some
number of turns. All that it asks for lies within the limit, and the proofs of a token are walked
through further down each time, so no more often than there are depths. -/
theorem walk_bounded (c : Context σ) (t : Token) (state : σ) :
    (∃ n, c.turns n (.start t state) = .done (c.walk t state)) ∧
    (∀ depth target, .lookup depth target ∈ (c.walk t state).2.steps →
      1 ≤ depth ∧ depth ≤ c.maxDepth) ∧
    (c.walk t state).2.resolver = c.resolve.replay (c.walk t state).2.lookups state ∧
    ∀ id, ((c.walk t state).2.expansions id).reverse.Pairwise (· < ·) ∧
      (∀ depth ∈ (c.walk t state).2.expansions id, depth ≤ c.maxDepth) ∧
      (0 ∈ (c.walk t state).2.expansions id ↔ id = t.cid .standard) ∧
      ((c.walk t state).2.expansions id).length ≤
        c.maxDepth + if id = t.cid .standard then 1 else 0 := by
  have bounded : Bounded c t state (c.walk t state).2 := (Bounded.start c t state).run
  refine ⟨Context.exists_turns _, ?_, bounded.replayed, fun id => ⟨?_, bounded.inside id,
    bounded.first id, bounded.length_expansions_le id⟩⟩
  next =>
    intro depth target done
    exact bounded.asked (depth, target) (List.mem_filterMap.mpr ⟨_, done, rfl⟩)
  next => exact List.pairwise_reverse.mpr (bounded.descends id)

end Delegation

end Ucan
