import Mathlib.Data.List.Forall2
import Ucan.Proofs.Json.Reads

/-!
Values that differ in nothing but the order of members. Sorting makes these the same, and the
canonical text tells all others apart.
-/

set_option autoImplicit false

namespace Ucan.Json

/-- Equal but for the order of members: in each object, every name has alike values or none. -/
inductive Alike : Json → Json → Prop where
  | null : Alike .null .null
  | bool (b : Bool) : Alike (.bool b) (.bool b)
  | number (n : Number) : Alike (.number n) (.number n)
  | string (s : String) : Alike (.string s) (.string s)
  | array {elements others : List Json} (each : List.Forall₂ Alike elements others) :
      Alike (.array elements) (.array others)
  | object {members others : List (String × Json)}
      (each : ∀ name, Option.Rel Alike (members.lookup name) (others.lookup name)) :
      Alike (.object members) (.object others)

def HasDistinctNames : Json → Prop
  | .object members => (members.map (·.1)).Nodup
  | _ => True

instance : DecidablePred HasDistinctNames
  | .object members => inferInstanceAs (Decidable (members.map (·.1)).Nodup)
  | .null | .bool _ | .number _ | .string _ | .array _ => .isTrue trivial

/-- No object has two members of one name. -/
def Distinct (j : Json) : Prop := ∀ k ∈ j.parts, k.HasDistinctNames

instance : DecidablePred Distinct := fun j => inferInstanceAs (Decidable (∀ k ∈ j.parts, _))

theorem distinct_array {elements : List Json} :
    (array elements).Distinct ↔ ∀ a ∈ elements, a.Distinct := by
  rw [Distinct, forall_parts]
  exact and_iff_right trivial

theorem distinct_object {members : List (String × Json)} :
    (object members).Distinct ↔ (members.map (·.1)).Nodup ∧ ∀ m ∈ members, m.2.Distinct := by
  rw [Distinct, forall_parts, children, List.forall_mem_map]
  rfl

/-! ## Sorting -/

theorem sortElements_eq_map (elements : List Json) : sortElements elements = elements.map sort := by
  induction elements with
  | nil => rfl
  | cons a rest ih => rw [sortElements, ih, List.map_cons]

theorem lookup_sortMembers {members : List (String × Json)} (distinct : (members.map (·.1)).Nodup)
    (name : String) : (sortMembers members).lookup name = (members.lookup name).map sort := by
  induction members generalizing name with
  | nil => rfl
  | cons m rest ih =>
    rw [List.map_cons, List.nodup_cons] at distinct
    have fresh : rest.lookup m.1 = none := lookup_eq_none_iff.mpr distinct.1
    obtain ⟨own, a⟩ := m
    have absent : (sortMembers rest).lookup own = none := by
      rw [ih distinct.2, fresh]
      rfl
    rw [sortMembers, lookup_alterEntry own name _ (sorted_sortMembers rest), lookup_cons_eq, absent,
      ih distinct.2]
    split <;> rfl

theorem exists_of_mem_sortMembers {members : List (String × Json)} {m : String × Json}
    (distinct : (members.map (·.1)).Nodup) (member : m ∈ sortMembers members) :
    ∃ old ∈ members, m = (old.1, old.2.sort) := by
  have found := (sorted_sortMembers members).lookup_eq_some_iff.mpr member
  rw [lookup_sortMembers distinct, Option.map_eq_some_iff] at found
  obtain ⟨a, found, same⟩ := found
  exact ⟨(m.1, a), mem_of_lookup found, by rw [same]⟩

variable {j k : Json}

theorem nesting_lt_of_mem_children (inside : k ∈ j.children) : k.nesting < j.nesting := by
  cases j with
  | array elements => exact Nat.lt_succ_of_le (nestingOfElements_le_iff.mp (Nat.le_refl _) k inside)
  | object members =>
    obtain ⟨m, member, rfl⟩ := List.mem_map.mp inside
    exact Nat.lt_succ_of_le (nestingOfMembers_le_iff.mp (Nat.le_refl _) m member)
  | _ => cases inside

/-- What holds of a value whenever it holds of those right inside it holds of all. -/
theorem induction_children {P : Json → Prop} (step : ∀ j, (∀ child ∈ j.children, P child) → P j)
    (j : Json) : P j :=
  step j fun child inside =>
    have := nesting_lt_of_mem_children inside
    induction_children step child
termination_by j.nesting

theorem exists_of_mem_parts_sort (distinct : j.Distinct) (inside : k ∈ j.sort.parts) :
    ∃ old ∈ j.parts, k = old.sort := by
  induction j using induction_children with
  | step j ih =>
    rcases mem_parts.mp inside with rfl | ⟨child, right, inside⟩
    · exact ⟨j, mem_parts.mpr (.inl rfl), rfl⟩
    · -- What stands right inside is the same as before, sorted and in another order.
      have below : ∃ old ∈ j.children, old.Distinct ∧ child = old.sort := by
        cases j with
        | array elements =>
          rw [sort, children, sortElements_eq_map] at right
          obtain ⟨a, member, rfl⟩ := List.mem_map.mp right
          exact ⟨a, member, distinct_array.mp distinct a member, rfl⟩
        | object members =>
          obtain ⟨names, distinct⟩ := distinct_object.mp distinct
          obtain ⟨m, sorted, rfl⟩ := List.mem_map.mp right
          obtain ⟨old, member, rfl⟩ := exists_of_mem_sortMembers names sorted
          exact ⟨old.2, List.mem_map.mpr ⟨old, member, rfl⟩, distinct old member, rfl⟩
        | _ => cases right
      obtain ⟨old, member, distinct, rfl⟩ := below
      obtain ⟨found, deeper, rfl⟩ := ih old member distinct inside
      exact ⟨found, mem_parts.mpr (.inr ⟨old, member, deeper⟩), rfl⟩

theorem ordered_sort (distinct : j.Distinct) : j.sort.Ordered := by
  intro k inside
  obtain ⟨old, -, rfl⟩ := exists_of_mem_parts_sort distinct inside
  cases old with
  | object members => exact sorted_sortMembers members
  | _ => trivial

theorem integral_sort (distinct : j.Distinct) (integral : j.Integral) : j.sort.Integral := by
  intro k inside
  obtain ⟨old, member, rfl⟩ := exists_of_mem_parts_sort distinct inside
  have exact := integral old member
  cases old with
  | number n => exact exact
  | _ => trivial

theorem sort_of_ordered (ordered : j.Ordered) : j.sort = j :=
  Fits.sort_eq ⟨ordered, Nat.le_refl j.nesting⟩

theorem alike_array {elements others : List Json} :
    Alike (.array elements) (.array others) ↔ List.Forall₂ Alike elements others := by
  constructor
  · rintro ⟨⟩
    assumption
  · exact .array

theorem alike_object {members others : List (String × Json)} :
    Alike (.object members) (.object others) ↔
      ∀ name, Option.Rel Alike (members.lookup name) (others.lookup name) := by
  constructor
  · rintro ⟨⟩
    assumption
  · exact .object

theorem forall₂_iff_of_mem {α : Type} {R S : α → α → Prop} {as bs : List α}
    (each : ∀ a ∈ as, ∀ b ∈ bs, R a b ↔ S a b) : List.Forall₂ R as bs ↔ List.Forall₂ S as bs := by
  rw [List.forall₂_iff_zip, List.forall₂_iff_zip]
  refine and_congr_right fun _ => forall_congr' fun a => forall_congr' fun b => ?_
  refine imp_congr_right fun paired => ?_
  obtain ⟨left, right⟩ := List.of_mem_zip paired
  exact each a left b right

theorem sortElements_eq_iff {elements others : List Json}
    (each : ∀ a ∈ elements, ∀ b ∈ others, a.sort = b.sort ↔ Alike a b) :
    sortElements elements = sortElements others ↔ List.Forall₂ Alike elements others := by
  rw [sortElements_eq_map, sortElements_eq_map, ← List.forall₂_eq_eq_eq, List.forall₂_map_left_iff,
    List.forall₂_map_right_iff]
  exact forall₂_iff_of_mem each

theorem sortMembers_eq_iff {members others : List (String × Json)}
    (distinct : (members.map (·.1)).Nodup) (otherDistinct : (others.map (·.1)).Nodup)
    (each : ∀ m ∈ members, ∀ n ∈ others, m.2.sort = n.2.sort ↔ Alike m.2 n.2) :
    sortMembers members = sortMembers others ↔
      ∀ name, Option.Rel Alike (members.lookup name) (others.lookup name) := by
  have byName : sortMembers members = sortMembers others ↔
      ∀ name, (sortMembers members).lookup name = (sortMembers others).lookup name :=
    ⟨fun same name => same ▸ rfl,
      (sorted_sortMembers members).eq_of_lookup (sorted_sortMembers others)⟩
  rw [byName]
  refine forall_congr' fun name => ?_
  rw [lookup_sortMembers distinct, lookup_sortMembers otherDistinct]
  cases left : members.lookup name <;> cases right : others.lookup name
  case some.some a b => simp [each _ (mem_of_lookup left) _ (mem_of_lookup right)]
  all_goals simp

theorem sort_eq_sort_iff (distinct : j.Distinct) (otherDistinct : k.Distinct) :
    j.sort = k.sort ↔ Alike j k := by
  induction j using induction_children generalizing k with
  | step j ih =>
    cases j <;> cases k
    case array.array elements others =>
      rw [distinct_array] at distinct otherDistinct
      rw [sort, sort, array.injEq, alike_array]
      exact sortElements_eq_iff fun a left b right =>
        ih a left (distinct a left) (otherDistinct b right)
    case object.object members others =>
      obtain ⟨names, distinct⟩ := distinct_object.mp distinct
      obtain ⟨otherNames, otherDistinct⟩ := distinct_object.mp otherDistinct
      rw [sort, sort, object.injEq, alike_object]
      refine sortMembers_eq_iff names otherNames fun m left n right => ?_
      exact ih m.2 (List.mem_map_of_mem left) (distinct m left) (otherDistinct n right)
    case bool.bool | number.number | string.string =>
      simp only [sort]
      constructor
      · rintro ⟨⟩
        constructor
      · rintro ⟨⟩
        rfl
    case null.null => exact iff_of_true rfl .null
    -- Values of two kinds are neither alike nor sorted into the same.
    all_goals
      refine iff_of_false (by simp [sort]) fun alike => ?_
      cases alike

/-! ## The canonical text -/

theorem print_injective (ordered : j.Ordered) (otherOrdered : k.Ordered) (integral : j.Integral)
    (otherIntegral : k.Integral) (same : j.print = k.print) : j = k := by
  have read := parse_of_reads (reads_value ⟨ordered, Nat.le_max_left j.nesting k.nesting⟩ integral)
  have again := parse_of_reads
    (reads_value ⟨otherOrdered, Nat.le_max_right j.nesting k.nesting⟩ otherIntegral)
  rw [same, again] at read
  exact (Except.ok.inj read).symm

theorem canonical_eq_canonical_iff (distinct : j.Distinct) (otherDistinct : k.Distinct)
    (integral : j.Integral) (otherIntegral : k.Integral) :
    j.canonical = k.canonical ↔ Alike j k := by
  rw [← sort_eq_sort_iff distinct otherDistinct, canonical, canonical]
  constructor
  · exact print_injective (ordered_sort distinct) (ordered_sort otherDistinct)
      (integral_sort distinct integral) (integral_sort otherDistinct otherIntegral)
  · exact congrArg print

/-! ## Relations that go through a value -/

/-- Whether values are related is settled by what is inside them, whatever the order of members. -/
structure Structural (R : Json → Json → Prop) : Prop where
  flat : ∀ {a b : Json}, a.nesting = 0 → b.nesting = 0 → (R a b ↔ a = b)
  array : ∀ {elements others : List Json},
    R (.array elements) (.array others) ↔ List.Forall₂ R elements others
  object : ∀ {members others : List (String × Json)}, Sorted members → Sorted others →
    (R (.object members) (.object others) ↔
      ∀ name, Option.Rel R (members.lookup name) (others.lookup name))

theorem structural_alike : Structural Alike where
  flat := by
    intro a b flat otherFlat
    cases a <;> cases b
    case array.array | object.object => cases flat
    case bool.bool | number.number | string.string =>
      constructor
      · rintro ⟨⟩
        rfl
      · rintro ⟨⟩
        constructor
    case null.null => exact iff_of_true .null rfl
    all_goals exact iff_of_false nofun nofun
  array := alike_array
  object := fun _ _ => alike_object

theorem rel_eq_iff {α : Type} {o other : Option α} : Option.Rel Eq o other ↔ o = other := by
  cases o <;> cases other <;> simp

theorem structural_eq : Structural Eq where
  flat := fun _ _ => Iff.rfl
  array := by
    intro elements others
    rw [array.injEq, List.forall₂_eq_eq_eq]
  object := by
    intro members others sorted otherSorted
    simp only [object.injEq, rel_eq_iff]
    exact ⟨fun same name => same ▸ rfl, sorted.eq_of_lookup otherSorted⟩

end Ucan.Json
