import Ucan.Json.Printer
import Ucan.Proofs.Dict

/-!
JSON values all the way down: the values inside a value, how deep they stand inside one another, and
which values are in order already, so that sorting leaves them as they are.
-/

set_option autoImplicit false

namespace Ucan.Json

def children : Json → List Json
  | .array elements => elements
  | .object members => members.map (·.2)
  | _ => []

mutual

/-- The value and all values inside it. -/
def parts : Json → List Json
  | .array elements => .array elements :: partsOfElements elements
  | .object members => .object members :: partsOfMembers members
  | .null => [.null]
  | .bool b => [.bool b]
  | .number n => [.number n]
  | .string s => [.string s]

def partsOfElements : List Json → List Json
  | [] => []
  | a :: as => parts a ++ partsOfElements as

def partsOfMembers : List (String × Json) → List Json
  | [] => []
  | (_, a) :: as => parts a ++ partsOfMembers as

end

mutual

/-- How many containers stand inside one another. -/
def nesting : Json → Nat
  | .array elements => nestingOfElements elements + 1
  | .object members => nestingOfMembers members + 1
  | .null | .bool _ | .number _ | .string _ => 0

def nestingOfElements : List Json → Nat
  | [] => 0
  | a :: as => max (nesting a) (nestingOfElements as)

def nestingOfMembers : List (String × Json) → Nat
  | [] => 0
  | (_, a) :: as => max (nesting a) (nestingOfMembers as)

end

/-- The members of an object are sorted by their names. -/
def HasSortedMembers : Json → Prop
  | .object members => Sorted members
  | _ => True

/-- A number is an exact integer. -/
def HasExactNumber : Json → Prop
  | .number (.double _) => False
  | _ => True

instance : DecidablePred HasSortedMembers
  | .object members => inferInstanceAs (Decidable (Sorted members))
  | .null | .bool _ | .number _ | .string _ | .array _ => .isTrue trivial

instance : DecidablePred HasExactNumber
  | .number (.double _) => .isFalse id
  | .number (.integer ..) | .null | .bool _ | .string _ | .array _ | .object _ => .isTrue trivial

/-- In the form that reading brings a value into. -/
def Ordered (j : Json) : Prop := ∀ k ∈ j.parts, k.HasSortedMembers

def Integral (j : Json) : Prop := ∀ k ∈ j.parts, k.HasExactNumber

instance : DecidablePred Ordered := fun j => inferInstanceAs (Decidable (∀ k ∈ j.parts, _))

instance : DecidablePred Integral := fun j => inferInstanceAs (Decidable (∀ k ∈ j.parts, _))

/-! ## One level further in -/

theorem mem_partsOfElements {k : Json} {elements : List Json} :
    k ∈ partsOfElements elements ↔ ∃ a ∈ elements, k ∈ a.parts := by
  induction elements with
  | nil => simp [partsOfElements]
  | cons a rest ih => simp [partsOfElements, ih]

theorem mem_partsOfMembers {k : Json} {members : List (String × Json)} :
    k ∈ partsOfMembers members ↔ ∃ m ∈ members, k ∈ m.2.parts := by
  induction members with
  | nil => simp [partsOfMembers]
  | cons m rest ih => simp [partsOfMembers, ih]

theorem mem_parts {j k : Json} : k ∈ j.parts ↔ k = j ∨ ∃ child ∈ j.children, k ∈ child.parts := by
  cases j with
  | array elements => rw [parts, children, List.mem_cons, mem_partsOfElements]
  | object members =>
    rw [parts, children, List.mem_cons, mem_partsOfMembers]
    simp only [List.mem_map]
    grind
  | _ => simp [parts, children]

theorem forall_parts {p : Json → Prop} {j : Json} :
    (∀ k ∈ j.parts, p k) ↔ p j ∧ ∀ child ∈ j.children, ∀ k ∈ child.parts, p k := by
  constructor
  · intro all
    exact ⟨all j (mem_parts.mpr (.inl rfl)),
      fun child member k inside => all k (mem_parts.mpr (.inr ⟨child, member, inside⟩))⟩
  · rintro ⟨own, inside⟩ k member
    rcases mem_parts.mp member with rfl | ⟨child, there, member⟩
    · exact own
    · exact inside child there k member

theorem nestingOfElements_le_iff {depth : Nat} {elements : List Json} :
    nestingOfElements elements ≤ depth ↔ ∀ a ∈ elements, a.nesting ≤ depth := by
  induction elements with
  | nil => simp [nestingOfElements]
  | cons a rest ih => rw [nestingOfElements, Nat.max_le, ih, List.forall_mem_cons]

theorem nestingOfMembers_le_iff {depth : Nat} {members : List (String × Json)} :
    nestingOfMembers members ≤ depth ↔ ∀ m ∈ members, m.2.nesting ≤ depth := by
  induction members with
  | nil => simp [nestingOfMembers]
  | cons m rest ih => rw [nestingOfMembers, Nat.max_le, ih, List.forall_mem_cons]

theorem ordered_array {elements : List Json} :
    (array elements).Ordered ↔ ∀ a ∈ elements, a.Ordered := by
  rw [Ordered, forall_parts]
  exact and_iff_right trivial

theorem ordered_object {members : List (String × Json)} :
    (object members).Ordered ↔ Sorted members ∧ ∀ m ∈ members, m.2.Ordered := by
  rw [Ordered, forall_parts, children, List.forall_mem_map]
  rfl

theorem integral_array {elements : List Json} :
    (array elements).Integral ↔ ∀ a ∈ elements, a.Integral := by
  rw [Integral, forall_parts]
  exact and_iff_right trivial

theorem integral_object {members : List (String × Json)} :
    (object members).Integral ↔ ∀ m ∈ members, m.2.Integral := by
  rw [Integral, forall_parts, children, List.forall_mem_map]
  exact and_iff_right trivial

theorem nesting_array_le {depth : Nat} {elements : List Json} :
    (array elements).nesting ≤ depth + 1 ↔ ∀ a ∈ elements, a.nesting ≤ depth := by
  rw [nesting, Nat.add_le_add_iff_right, nestingOfElements_le_iff]

theorem nesting_object_le {depth : Nat} {members : List (String × Json)} :
    (object members).nesting ≤ depth + 1 ↔ ∀ m ∈ members, m.2.nesting ≤ depth := by
  rw [nesting, Nat.add_le_add_iff_right, nestingOfMembers_le_iff]

/-- In order, and with so many containers inside one another at most. -/
structure Fits (depth : Nat) (j : Json) : Prop where
  ordered : j.Ordered
  shallow : j.nesting ≤ depth

variable {depth : Nat}

theorem fits_array {elements : List Json} :
    Fits (depth + 1) (array elements) ↔ ∀ a ∈ elements, Fits depth a := by
  constructor
  · rintro ⟨ordered, shallow⟩ a member
    exact ⟨ordered_array.mp ordered a member, nesting_array_le.mp shallow a member⟩
  · intro fits
    exact ⟨ordered_array.mpr fun a member => (fits a member).ordered,
      nesting_array_le.mpr fun a member => (fits a member).shallow⟩

theorem fits_object {members : List (String × Json)} :
    Fits (depth + 1) (object members) ↔ Sorted members ∧ ∀ m ∈ members, Fits depth m.2 := by
  constructor
  · rintro ⟨ordered, shallow⟩
    obtain ⟨sorted, inside⟩ := ordered_object.mp ordered
    exact ⟨sorted, fun m member => ⟨inside m member, nesting_object_le.mp shallow m member⟩⟩
  · rintro ⟨sorted, fits⟩
    exact ⟨ordered_object.mpr ⟨sorted, fun m member => (fits m member).ordered⟩,
      nesting_object_le.mpr fun m member => (fits m member).shallow⟩

theorem not_fits_array {elements : List Json} : ¬ Fits 0 (array elements) :=
  fun fits => nomatch fits.shallow

theorem not_fits_object {members : List (String × Json)} : ¬ Fits 0 (object members) :=
  fun fits => nomatch fits.shallow

theorem parts_of_flat {j : Json} (flat : j.nesting = 0) : j.parts = [j] := by
  cases j with
  | array elements => cases flat
  | object members => cases flat
  | _ => rfl

theorem ordered_of_flat {j : Json} (flat : j.nesting = 0) : j.Ordered := by
  rw [Ordered, parts_of_flat flat, List.forall_mem_singleton]
  cases j with
  | object members => cases flat
  | _ => trivial

theorem integral_of_flat {j : Json} (flat : j.nesting = 0) (exact : j.HasExactNumber) :
    j.Integral := by
  rw [Integral, parts_of_flat flat, List.forall_mem_singleton]
  exact exact

theorem fits_of_flat {j : Json} (flat : j.nesting = 0) : Fits depth j :=
  ⟨ordered_of_flat flat, by omega⟩

/-! ## Sorting what is in order -/

theorem sortElements_of_sorted {elements : List Json} (sorted : ∀ a ∈ elements, a.sort = a) :
    sortElements elements = elements := by
  induction elements with
  | nil => rfl
  | cons a rest ih =>
    rw [List.forall_mem_cons] at sorted
    rw [sortElements, sorted.1, ih sorted.2]

theorem sortMembers_eq_map {members : List (String × Json)} (ordered : Sorted members) :
    sortMembers members = members.map fun m => (m.1, m.2.sort) := by
  induction members with
  | nil => rfl
  | cons m rest ih =>
    obtain ⟨first, ordered⟩ := List.pairwise_cons.mp ordered
    have before : ∀ e ∈ rest.map (fun m => (m.1, m.2.sort)), Before m.1 e.1 :=
      List.forall_mem_map.mpr first
    rw [sortMembers, ih ordered, alterEntry_of_first _ before]
    rfl

theorem sortMembers_of_sorted {members : List (String × Json)} (ordered : Sorted members)
    (sorted : ∀ m ∈ members, m.2.sort = m.2) : sortMembers members = members := by
  rw [sortMembers_eq_map ordered]
  refine (List.map_congr_left (g := id) fun m member => ?_).trans (List.map_id _)
  rw [sorted m member, id]

theorem Fits.sort_eq {j : Json} (fits : Fits depth j) : j.sort = j := by
  induction depth generalizing j with
  | zero =>
    cases j with
    | array elements => exact absurd fits not_fits_array
    | object members => exact absurd fits not_fits_object
    | _ => rfl
  | succ depth ih =>
    cases j with
    | array elements =>
      have inside := fits_array.mp fits
      rw [sort, sortElements_of_sorted fun a member => ih (inside a member)]
    | object members =>
      obtain ⟨ordered, inside⟩ := fits_object.mp fits
      rw [sort, sortMembers_of_sorted ordered fun m member => ih (inside m member)]
    | _ => rfl

theorem canonical_of_ordered {j : Json} (ordered : j.Ordered) : j.canonical = j.print := by
  have fits : Fits j.nesting j := ⟨ordered, Nat.le_refl _⟩
  rw [canonical, fits.sort_eq]

end Ucan.Json
