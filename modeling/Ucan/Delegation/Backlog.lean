import Ucan.Token

/-!
The links that a walk has still to follow, as a stack. Following one may put any number of links in
its place, but these lie deeper, and there is a limit to the depth; so the stack is used up.
-/

set_option autoImplicit false

namespace Ucan.Delegation

/-- A reference of a token. Those of the token that is validated have depth 1. -/
structure Link where
  child : Token
  reference : String
  depth : Nat

/-- The links that may be followed lie within the limit. -/
structure Backlog (limit : Nat) where
  links : List Link

namespace Backlog

variable {limit : Nat}

/-- The proofs of a token on top of the stack. They are put there from the last to the first, so
that the first one listed is followed first. -/
def push (child : Token) (depth : Nat) (links : List Link) : List Link :=
  child.proofs.reverse.foldl (fun links reference => ⟨child, reference, depth⟩ :: links) links

theorem push_eq_append (child : Token) (depth : Nat) (links : List Link) :
    push child depth links = child.proofs.map (⟨child, ·, depth⟩) ++ links := by
  rw [push, List.foldl_reverse]
  induction child.proofs with
  | nil => rfl
  | cons reference rest ih => simp [ih]

/-- One link gives way to deeper ones. -/
inductive Shrinks : Backlog limit → Backlog limit → Prop
  | follow {link : Link} {front rest : List Link} (within : link.depth ≤ limit)
      (deeper : ∀ next ∈ front, link.depth < next.depth) :
      Shrinks ⟨front ++ rest⟩ ⟨link :: rest⟩

/-- `levels` is more than what lies between the links in front and the limit. -/
theorem acc_append (levels : Nat) (front rest : List Link)
    (below : ∀ link ∈ front, limit < link.depth + levels)
    (done : Acc Shrinks (⟨rest⟩ : Backlog limit)) :
    Acc Shrinks (⟨front ++ rest⟩ : Backlog limit) := by
  induction levels generalizing front rest with
  | zero =>
    cases front with
    | nil => exact done
    | cons link front =>
      refine Acc.intro _ fun _ shrinks => ?_
      cases shrinks with
      | follow within deeper =>
        have := below link (by simp)
        omega
  | succ levels ih =>
    induction front with
    | nil => exact done
    | cons link front later =>
      refine Acc.intro _ fun _ shrinks => ?_
      cases shrinks with
      | follow within deeper =>
        apply ih
        · intro next member
          have := below link (by simp)
          have := deeper next member
          omega
        · exact later fun other member => below other (List.mem_cons_of_mem _ member)

theorem wellFounded_shrinks : WellFounded (@Shrinks limit) := by
  constructor
  rintro ⟨links⟩
  have used : Acc Shrinks (⟨[]⟩ : Backlog limit) := by
    refine Acc.intro _ fun _ shrinks => ?_
    nomatch shrinks
  have := acc_append (limit + 1) links [] (fun link _ => by omega) used
  rwa [List.append_nil] at this

instance : WellFoundedRelation (Backlog limit) := ⟨Shrinks, wellFounded_shrinks⟩

end Backlog

end Ucan.Delegation
