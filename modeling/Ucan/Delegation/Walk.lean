import Ucan.Delegation.Backlog
import Ucan.Delegation.Link
import Ucan.Proof.Store

/-!
The walk through the proofs of a token, the proofs of these, and so on: depth first, in the order
they are listed, up to the first fault. The proofs of a token that is met again are walked through
again only when it is met further down than before.
-/

set_option autoImplicit false

namespace Ucan

namespace Delegation

/-- What a walk does. The depth is that of the link: those of the token itself have depth 1. -/
inductive Step where
  -- The resolver is asked for a proof.
  | lookup (depth : Nat) (target : ProofTarget)
  -- The proof of a token is found good.
  | accept (depth : Nat) (reference : String) (child proof : Token)
  -- The proofs of the token with this identifier are walked through.
  | expand (depth : Nat) (id : Cid)
  deriving DecidableEq

/-- A walk so far. -/
structure Walk (σ : Type) where
  resolver : σ
  -- The links still to be followed, the next one first.
  pending : List Link
  -- What was done, from the last step to the first.
  steps : List Step

namespace Walk

variable {σ : Type}

def record (w : Walk σ) (step : Step) : Walk σ := { w with steps := step :: w.steps }

@[simp] theorem pending_record (w : Walk σ) (step : Step) :
    (w.record step).pending = w.pending := rfl

/-- How deep the proofs of a token were last walked through. -/
def lastDepth? (w : Walk σ) (id : Cid) : Option Nat :=
  w.steps.findSome? fun
    | .expand depth found => if found = id then some depth else none
    | _ => none

@[simp] theorem lastDepth?_lookup (w : Walk σ) (depth : Nat) (target : ProofTarget) (id : Cid) :
    (w.record (.lookup depth target)).lastDepth? id = w.lastDepth? id := rfl

@[simp] theorem lastDepth?_accept (w : Walk σ) (depth : Nat) (reference : String)
    (child proof : Token) (id : Cid) :
    (w.record (.accept depth reference child proof)).lastDepth? id = w.lastDepth? id := rfl

theorem lastDepth?_expand (w : Walk σ) (depth : Nat) (found id : Cid) :
    (w.record (.expand depth found)).lastDepth? id =
      if found = id then some depth else w.lastDepth? id := by
  by_cases same : found = id <;> simp [record, lastDepth?, same]

/-- There is nothing to find below the token that was not found further down. -/
def covers (w : Walk σ) (id : Cid) (depth : Nat) : Bool :=
  (w.lastDepth? id).any (depth ≤ ·)

theorem covers_iff {w : Walk σ} {id : Cid} {depth : Nat} :
    w.covers id depth = true ↔ ∃ last, w.lastDepth? id = some last ∧ depth ≤ last := by
  cases known : w.lastDepth? id <;> simp [covers, known]

def push (w : Walk σ) (child : Token) (depth : Nat) : Walk σ :=
  { w with pending := Backlog.push child depth w.pending }

theorem pending_push (w : Walk σ) (child : Token) (depth : Nat) :
    (w.push child depth).pending = child.proofs.map (⟨child, ·, depth⟩) ++ w.pending :=
  Backlog.push_eq_append child depth w.pending

theorem mem_pending_push {w : Walk σ} {child : Token} {depth : Nat} {link : Link} :
    link ∈ (w.push child depth).pending ↔
      (∃ reference ∈ child.proofs, link = ⟨child, reference, depth⟩) ∨ link ∈ w.pending := by
  simp only [pending_push, List.mem_append, List.mem_map, eq_comm]

@[simp] theorem lastDepth?_push (w : Walk σ) (child : Token) (depth : Nat) (id : Cid) :
    (w.push child depth).lastDepth? id = w.lastDepth? id := rfl

/-- A good proof was found at this depth. -/
def enter (w : Walk σ) (proof : Token) (depth : Nat) : Walk σ :=
  let id := proof.cid .standard
  if w.covers id depth then w else (w.record (.expand depth id)).push proof (depth + 1)

@[simp] theorem resolver_enter (w : Walk σ) (proof : Token) (depth : Nat) :
    (w.enter proof depth).resolver = w.resolver := by
  simp only [enter]
  split <;> rfl

theorem child_of_mem_enter {w : Walk σ} {proof : Token} {depth : Nat} {link : Link}
    (member : link ∈ (w.enter proof depth).pending) : link.child = proof ∨ link ∈ w.pending := by
  simp only [enter] at member
  split at member
  · exact .inr member
  · rcases mem_pending_push.mp member with ⟨reference, -, rfl⟩ | member
    · exact .inl rfl
    · exact .inr member

def start (t : Token) (state : σ) : Walk σ :=
  push ⟨state, [], [.expand 0 (t.cid .standard)]⟩ t 1

end Walk

structure Context (σ : Type) where
  resolve : ProofResolver σ
  keys : KeyResolver
  -- How many links may lead from the token to a proof.
  maxDepth : Nat
  now : UInt64

/-- A result, and the walk with what was done for it. -/
abbrev Outcome (σ α : Type) := Except ChainError α × Walk σ

namespace Context

variable {σ : Type}

def find (c : Context σ) (link : Link) (w : Walk σ) : Outcome σ Token :=
  match ProofTarget.parse link.reference with
  | .error e => (.error (.ofResolve link.reference e), w)
  | .ok target =>
    let (answer, state) := c.resolve target.reference w.resolver
    (target.check link.reference answer,
      { w with resolver := state }.record (.lookup link.depth target))

def follow (c : Context σ) (link : Link) (w : Walk σ) : Outcome σ Token :=
  match c.find link w with
  | (.error e, w) => (.error e, w)
  | (.ok proof, w) =>
    match checkLink c.keys c.now link.reference link.child proof with
    | .error e => (.error e, w)
    | .ok () => (.ok proof, w.record (.accept link.depth link.reference link.child proof))

theorem follow_eq_ok_iff {c : Context σ} {link : Link} {w after : Walk σ} {proof : Token} :
    c.follow link w = (.ok proof, after) ↔ ∃ found, c.find link w = (.ok proof, found) ∧
      checkLink c.keys c.now link.reference link.child proof = .ok () ∧
        after = found.record (.accept link.depth link.reference link.child proof) := by
  unfold follow
  constructor
  · intro followed
    split at followed
    · cases followed
    next found searched =>
      split at followed <;> cases followed
      next good => exact ⟨found, searched, good, rfl⟩
  · rintro ⟨found, searched, good, rfl⟩
    simp only [searched, good]

@[simp] theorem pending_find (c : Context σ) (link : Link) (w : Walk σ) :
    (c.find link w).2.pending = w.pending := by
  unfold find
  split <;> rfl

@[simp] theorem pending_follow (c : Context σ) (link : Link) (w : Walk σ) :
    (c.follow link w).2.pending = w.pending := by
  unfold follow
  repeat' split
  all_goals simp_all [← c.pending_find link w]

theorem lastDepth?_follow (c : Context σ) (link : Link) (w : Walk σ) (id : Cid) :
    (c.follow link w).2.lastDepth? id = w.lastDepth? id := by
  have kept : (c.find link w).2.lastDepth? id = w.lastDepth? id := by
    unfold find
    split <;> rfl
  unfold follow
  repeat' split
  all_goals simp_all

inductive Turn (σ : Type) where
  | done (outcome : Outcome σ Unit)
  | next (w : Walk σ)

/-- Follows the next link, and leaves the proofs of the proof to be followed. -/
def turn (c : Context σ) (w : Walk σ) : Turn σ :=
  match w.pending with
  | [] => .done (.ok (), w)
  | link :: rest =>
    if c.maxDepth < link.depth then .done (.error (.tooDeep c.maxDepth), w)
    else match c.follow link { w with pending := rest } with
      | (.error e, w) => .done (.error e, w)
      | (.ok proof, w) => .next (w.enter proof link.depth)

theorem turn_of_nil {c : Context σ} {w : Walk σ} (pending : w.pending = []) :
    c.turn w = .done (.ok (), w) := by
  simp only [turn, pending]

theorem turn_of_follow {c : Context σ} {w after : Walk σ} {link : Link} {rest : List Link}
    {proof : Token} (pending : w.pending = link :: rest) (within : link.depth ≤ c.maxDepth)
    (followed : c.follow link { w with pending := rest } = (.ok proof, after)) :
    c.turn w = .next (after.enter proof link.depth) := by
  simp only [turn, pending, Nat.not_lt.mpr within, if_false, followed]

theorem exists_of_turn {c : Context σ} {w next : Walk σ} (turned : c.turn w = .next next) :
    ∃ link rest proof after, w.pending = link :: rest ∧ link.depth ≤ c.maxDepth ∧
      c.follow link { w with pending := rest } = (.ok proof, after) ∧
      next = after.enter proof link.depth := by
  unfold turn at turned
  split at turned
  · cases turned
  next link rest pending =>
    split at turned
    · cases turned
    next within =>
      split at turned <;> cases turned
      next proof after followed =>
        exact ⟨link, rest, proof, after, pending, by omega, followed, rfl⟩

theorem pending_of_done {c : Context σ} {w : Walk σ} {outcome : Outcome σ Unit}
    (turned : c.turn w = .done outcome) (good : outcome.1 = .ok ()) : w.pending = [] := by
  unfold turn at turned
  split at turned
  · assumption
  · split at turned
    · cases turned
      cases good
    · split at turned <;> cases turned
      cases good

theorem shrinks_of_turn {c : Context σ} {w next : Walk σ} (turned : c.turn w = .next next) :
    Backlog.Shrinks (⟨next.pending⟩ : Backlog c.maxDepth) ⟨w.pending⟩ := by
  obtain ⟨link, rest, proof, after, pending, within, followed, rfl⟩ := exists_of_turn turned
  have kept := c.pending_follow link { w with pending := rest }
  simp only [followed] at kept
  rw [pending, Walk.enter]
  split
  · rw [kept, ← List.nil_append rest]
    exact .follow within (by simp)
  · rw [Walk.pending_push, Walk.pending_record, kept]
    exact .follow within (by simp)

/-- Turn by turn, until there is a fault or nothing left to follow. -/
def run (c : Context σ) (w : Walk σ) : Outcome σ Unit :=
  match _turned : c.turn w with
  | .done outcome => outcome
  | .next w => c.run w
termination_by (⟨w.pending⟩ : Backlog c.maxDepth)
decreasing_by exact shrinks_of_turn _turned

theorem run_of_done {c : Context σ} {w : Walk σ} {outcome : Outcome σ Unit}
    (turned : c.turn w = .done outcome) : c.run w = outcome := by
  rw [run]
  split <;> simp_all

theorem run_of_next {c : Context σ} {w next : Walk σ} (turned : c.turn w = .next next) :
    c.run w = c.run next := by
  rw [run]
  split <;> simp_all

def walk (c : Context σ) (t : Token) (state : σ) : Outcome σ Unit := c.run (.start t state)

end Context

end Delegation

end Ucan
