import Ucan.Proofs.Delegation.Soundness
import Ucan.Proofs.Lifetime

/-!
The time matters to a delegation no more than it does to the token that is validated.
-/

set_option autoImplicit false

namespace Ucan

variable {σ : Type}

/-- What a resolver answers when it is asked for one reference after the other. -/
def ProofResolver.answers (resolve : ProofResolver σ) :
    σ → List ProofReference → List (Except ResolveError Token)
  | _, [] => []
  | state, reference :: rest =>
    (resolve reference state).1 :: answers resolve (resolve reference state).2 rest

/-- The answers are the same from now on, whatever is asked. -/
def ProofResolver.Alike (resolve : ProofResolver σ) (state other : σ) : Prop :=
  ∀ references, answers resolve state references = answers resolve other references

namespace ProofResolver

variable {resolve : ProofResolver σ} {state other : σ}

theorem Alike.refl (resolve : ProofResolver σ) (state : σ) : Alike resolve state state :=
  fun _ => rfl

theorem Alike.answer (alike : Alike resolve state other) (reference : ProofReference) :
    (resolve reference state).1 = (resolve reference other).1 := by
  have := alike [reference]
  simpa [answers] using this

theorem Alike.next (alike : Alike resolve state other) (reference : ProofReference) :
    Alike resolve (resolve reference state).2 (resolve reference other).2 := by
  intro references
  have := alike (reference :: references)
  exact (List.cons.inj this).2

end ProofResolver

namespace Delegation

open ProofResolver (Alike)

def Walk.resume (w : Walk σ) (state : σ) : Walk σ := { w with resolver := state }

def Context.atTime (c : Context σ) (time : UInt64) : Context σ := { c with now := time }

variable {c : Context σ} {w next after : Walk σ} {link : Link} {child proof t : Token} {state : σ}
  {time : UInt64}

theorem Supports.atTime {keys : KeyResolver} {now : UInt64}
    (supports : Supports keys now child proof) (active : child.Active time) :
    Supports keys time child proof := by
  obtain ⟨notExpired, notTooEarly⟩ := active.of_encompasses supports.lifetime
  exact { supports with notExpired, notTooEarly }

theorem Walk.enter_resume (w : Walk σ) (proof : Token) (depth : Nat) (state : σ) :
    (w.resume state).enter proof depth = (w.enter proof depth).resume state := by
  have same : (w.resume state).covers (proof.cid .standard) depth =
    w.covers (proof.cid .standard) depth := rfl
  simp only [Walk.enter, same]
  split <;> rfl

namespace Context

theorem find_atTime (link : Link) (alike : Alike c.resolve w.resolver state) :
    ∃ state', Alike c.resolve (c.find link w).2.resolver state' ∧
      (c.atTime time).find link (w.resume state) =
        ((c.find link w).1, (c.find link w).2.resume state') := by
  unfold find
  split
  · exact ⟨state, alike, rfl⟩
  next target parsed =>
    refine ⟨_, alike.next target.reference, ?_⟩
    have same := alike.answer target.reference
    simp only [atTime, Walk.resume, same]
    rfl

theorem follow_atTime (alike : Alike c.resolve w.resolver state) (active : link.child.Active time)
    (followed : c.follow link w = (.ok proof, after)) :
    proof.Active time ∧ ∃ state', Alike c.resolve after.resolver state' ∧
      (c.atTime time).follow link (w.resume state) = (.ok proof, after.resume state') := by
  obtain ⟨found, searched, good, rfl⟩ := follow_eq_ok_iff.mp followed
  obtain ⟨state', alike, again⟩ := find_atTime link alike
  rw [searched] at alike again
  have supports := checkLink_eq_ok_iff.mp good
  -- The proof outlasts the token that it is a proof of, so the other time is in its lifetime too.
  refine ⟨active.of_encompasses supports.lifetime, state', alike, ?_⟩
  exact follow_eq_ok_iff.mpr ⟨_, again, checkLink_eq_ok_iff.mpr (supports.atTime active), rfl⟩

theorem turn_atTime (alike : Alike c.resolve w.resolver state)
    (active : ∀ link ∈ w.pending, link.child.Active time) (turned : c.turn w = .next next) :
    (∀ link ∈ next.pending, link.child.Active time) ∧
      ∃ state', Alike c.resolve next.resolver state' ∧
        (c.atTime time).turn (w.resume state) = .next (next.resume state') := by
  -- The turns of both walks follow the same link, and the record decides the same for both.
  obtain ⟨link, rest, proof, after, pending, within, followed, rfl⟩ := exists_of_turn turned
  have kept := c.pending_follow link { w with pending := rest }
  simp only [followed] at kept
  rw [pending, List.forall_mem_cons] at active
  obtain ⟨proofActive, state', alike, again⟩ :=
    follow_atTime (w := { w with pending := rest }) alike active.1 followed
  refine ⟨?_, state', ?_, ?_⟩
  · intro other member
    rcases Walk.child_of_mem_enter member with same | member
    · rwa [same]
    · rw [kept] at member
      exact active.2 other member
  · rwa [Walk.resolver_enter]
  · rw [← Walk.enter_resume]
    exact turn_of_follow pending within again

theorem run_atTime (alike : Alike c.resolve w.resolver state)
    (active : ∀ link ∈ w.pending, link.child.Active time) (good : (c.run w).1 = .ok ()) :
    ((c.atTime time).run (w.resume state)).1 = .ok () := by
  induction w using run.induct c generalizing state with
  | case1 w outcome turned =>
    rw [run_of_done turned] at good
    have pending := pending_of_done turned good
    rw [run_of_done (turn_of_nil (w := w.resume state) pending)]
  | case2 w next turned ih =>
    obtain ⟨active, state', alike, again⟩ := turn_atTime alike active turned
    rw [run_of_next turned] at good
    rw [run_of_next again]
    exact ih alike active good

theorem walk_atTime {later : σ} (alike : Alike c.resolve state later) (active : t.Active time)
    (good : (c.walk t state).1 = .ok ()) : ((c.atTime time).walk t later).1 = .ok () := by
  refine run_atTime alike ?_ good
  intro link member
  rcases Walk.mem_pending_push.mp member with ⟨reference, -, rfl⟩ | member
  · exact active
  · cases member

end Context

end Delegation

namespace Validator

open Delegation

/-- A token that is valid at one time is valid as long as it lasts itself. -/
theorem validateWith_of_active {v : Validator} {proofs : ProofResolver σ}
    {state later : σ} {now time : UInt64} {t : Token}
    (alike : ProofResolver.Alike proofs state later)
    (valid : v.validateWith proofs state now t = .ok ()) (notExpired : t.isExpired time = false)
    (notTooEarly : t.isTooEarly time = false) :
    v.validateWith proofs later time t = .ok () := by
  obtain ⟨signed, -, walked⟩ := validateWith_eq_ok_iff.mp valid
  have active : t.Active time := ⟨notExpired, notTooEarly⟩
  exact validateWith_eq_ok_iff.mpr ⟨signed, active, Context.walk_atTime alike active walked⟩

theorem validateWith_leaf_of_active :
    Validator.validateWith ⟨1, Sample.keys⟩ (.ofFunction Sample.answer) () 3 Sample.leaf = .ok () ∧
      Validator.validateWith ⟨1, Sample.keys⟩ (.ofFunction Sample.answer) () 4 Sample.leaf =
        .ok () := by
  have walked := (walk_eq_ok_iff (c := Sample.context) (answers_ofFunction _) Sample.identified
    ()).mpr Sample.delegated
  have valid : Validator.validateWith ⟨1, Sample.keys⟩ (.ofFunction Sample.answer) () 3
      Sample.leaf = .ok () :=
    validateWith_eq_ok_iff.mpr ⟨Sample.signed_leaf, ⟨rfl, rfl⟩, walked⟩
  exact ⟨valid, validateWith_of_active (.refl _ ()) valid rfl rfl⟩

end Validator

end Ucan
