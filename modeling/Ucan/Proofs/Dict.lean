import Ucan.Dict

/-!
Dictionaries as what they are looked up for: two with the same answers are equal, and the members
that were added answer first.
-/

set_option autoImplicit false

namespace Ucan

universe u

variable {α : Type u} {name k : String} {a : α} {entries others : List (String × α)}

instance (entries : List (String × α)) : Decidable (Sorted entries) :=
  inferInstanceAs (Decidable (entries.Pairwise fun a b => Before a.1 b.1))

theorem before_irrefl (name : String) : ¬ Before name name := List.lt_irrefl _

theorem Before.ne {a b : String} (before : Before a b) : a ≠ b :=
  fun same => before_irrefl b (same ▸ before)

theorem Before.asymm {a b : String} (before : Before a b) : ¬ Before b a :=
  fun after => before_irrefl a (List.lt_trans before after)

theorem lookup_eq_none_iff : entries.lookup name = none ↔ name ∉ entries.map (·.1) := by
  induction entries with
  | nil => simp
  | cons head rest ih =>
    rw [lookup_cons_eq, List.map_cons, List.mem_cons]
    by_cases same : name = head.1 <;> simp only [same, ih, if_true, if_false, true_or, false_or,
      not_true, reduceCtorEq]

theorem mem_of_lookup (found : entries.lookup name = some a) : (name, a) ∈ entries := by
  induction entries with
  | nil => cases found
  | cons head rest ih =>
    rw [lookup_cons_eq] at found
    split at found
    next same =>
      cases found
      simp [same]
    · exact List.mem_cons_of_mem _ (ih found)

theorem lookup_of_mem (distinct : (entries.map (·.1)).Nodup) (member : (name, a) ∈ entries) :
    entries.lookup name = some a := by
  induction entries with
  | nil => cases member
  | cons head rest ih =>
    rw [List.map_cons, List.nodup_cons] at distinct
    rw [lookup_cons_eq]
    rcases List.mem_cons.mp member with rfl | member
    · simp
    · have other : name ≠ head.1 := fun same =>
        distinct.1 (List.mem_map.mpr ⟨(name, a), member, same⟩)
      rw [if_neg other, ih distinct.2 member]

theorem Sorted.nodup (sorted : Sorted entries) : (entries.map (·.1)).Nodup :=
  List.pairwise_map.mpr (sorted.imp fun before => before.ne)

theorem Sorted.lookup_eq_some_iff (sorted : Sorted entries) :
    entries.lookup name = some a ↔ (name, a) ∈ entries :=
  ⟨mem_of_lookup, lookup_of_mem sorted.nodup⟩

theorem Sorted.eq_of_lookup (sorted : Sorted entries) (otherSorted : Sorted others)
    (same : ∀ k, entries.lookup k = others.lookup k) : entries = others := by
  have mem_iff (e : String × α) : e ∈ entries ↔ e ∈ others := by
    rw [← sorted.lookup_eq_some_iff, ← otherSorted.lookup_eq_some_iff, same]
  have nodup : entries.Nodup := sorted.imp fun before same => before.ne (congrArg _ same)
  have otherNodup : others.Nodup := otherSorted.imp fun before same => before.ne (congrArg _ same)
  -- Sorted lists of the same members are the same list.
  refine List.Perm.eq_of_pairwise ?_ sorted otherSorted
    ((List.perm_ext_iff_of_nodup nodup otherNodup).mpr mem_iff)
  intro a b _ _ before after
  exact absurd after before.asymm

/-! ## Adding -/

theorem alterEntry_of_first (f : Option α → α) (first : ∀ e ∈ entries, Before name e.1) :
    alterEntry name f entries = (name, f none) :: entries := by
  cases entries with
  | nil => rfl
  | cons head rest =>
    have before := first head (by simp)
    rw [alterEntry, if_neg before.ne, if_pos before]

theorem mem_insertEntry {e : String × α} (member : e ∈ insertEntry name a entries) :
    e = (name, a) ∨ e ∈ entries := by
  induction entries with
  | nil => exact .inl (List.mem_singleton.mp member)
  | cons head rest ih =>
    rw [insertEntry, alterEntry] at member
    split at member
    next same =>
      rw [same]
      exact (List.mem_cons.mp member).imp_right (List.mem_cons_of_mem _)
    split at member
    · exact List.mem_cons.mp member
    · rcases List.mem_cons.mp member with rfl | later
      · exact .inr List.mem_cons_self
      · exact (ih later).imp_right (List.mem_cons_of_mem _)

theorem forall_insertEntry {p : String × α → Prop} (new : p (name, a)) (all : ∀ e ∈ entries, p e) :
    ∀ e ∈ insertEntry name a entries, p e := by
  intro e member
  rcases mem_insertEntry member with rfl | member
  · exact new
  · exact all e member

namespace Dict

variable {d e : Dict α}

theorem find?_eq_some_iff : d.find? name = some a ↔ (name, a) ∈ d.entries :=
  d.sorted.lookup_eq_some_iff

theorem find?_of_apart {names : List String} (apart : ∀ e ∈ d.entries, e.1 ∉ names)
    (member : name ∈ names) : d.find? name = none := by
  rw [find?, lookup_eq_none_iff, List.mem_map]
  rintro ⟨e, other, rfl⟩
  exact apart e other member

theorem isEmpty_of_find? (found : d.find? name = some a) : d.isEmpty = false := by
  have member := find?_eq_some_iff.mp found
  simp [isEmpty, List.ne_nil_of_mem member]

theorem ext_find? (same : ∀ k, d.find? k = e.find? k) : d = e :=
  ext (d.sorted.eq_of_lookup e.sorted same)

@[simp] theorem find?_empty (k : String) : (empty : Dict α).find? k = none := rfl

theorem find?_insertAll (d : Dict α) (distinct : (entries.map (·.1)).Nodup) (k : String) :
    (d.insertAll entries).find? k = (entries.lookup k).or (d.find? k) := by
  induction entries generalizing d with
  | nil => rfl
  | cons head rest ih =>
    rw [List.map_cons, List.nodup_cons] at distinct
    have later := ih (d.insert head.1 head.2) distinct.2
    rw [insertAll, List.foldl_cons, ← insertAll, later, find?_insert, lookup_cons_eq]
    by_cases same : k = head.1
    · rw [same, lookup_eq_none_iff.mpr distinct.1]
      simp
    · simp [same]

theorem find?_ofList (distinct : (entries.map (·.1)).Nodup) (k : String) :
    (ofList entries).find? k = entries.lookup k := by
  rw [ofList, find?_insertAll _ distinct, find?_empty, Option.or_none]

theorem sorted_map {β : Type} (d : Dict α) (f : String × α → β) :
    Sorted (d.entries.map fun e => (e.1, f e)) :=
  List.pairwise_map.mpr d.sorted

/-- A record's own members and the others that it was found with. -/
theorem mem_insertAll_ofList {others : Dict α} (distinct : (entries.map (·.1)).Nodup)
    (apart : ∀ e ∈ others.entries, e.1 ∉ entries.map (·.1)) {e : String × α} :
    e ∈ ((ofList entries).insertAll others.entries).entries ↔ e ∈ entries ∨ e ∈ others.entries := by
  obtain ⟨k, a⟩ := e
  rw [← find?_eq_some_iff, find?_insertAll _ others.sorted.nodup, find?_ofList distinct,
    Option.or_eq_some_iff, ← others.sorted.lookup_eq_some_iff, ← find?]
  constructor
  · rintro (other | ⟨-, own⟩)
    · exact .inr other
    · exact .inl (mem_of_lookup own)
  · rintro (own | other)
    · refine .inr ⟨?_, lookup_of_mem distinct own⟩
      cases there : others.find? k with
      | none => rfl
      | some b =>
        exact absurd (List.mem_map.mpr ⟨_, own, rfl⟩) (apart (k, b) (find?_eq_some_iff.mp there))
    · exact .inl other

/-! ## The members of some names -/

def restrict (d : Dict α) (names : List String) : Dict α :=
  ⟨d.entries.filter (·.1 ∈ names), d.sorted.filter _⟩

theorem find?_restrict (d : Dict α) (names : List String) (k : String) :
    (d.restrict names).find? k = if k ∈ names then d.find? k else none := by
  change (d.entries.filter (·.1 ∈ names)).lookup k = if k ∈ names then d.entries.lookup k else none
  induction d.entries with
  | nil => simp
  | cons head rest ih =>
    obtain ⟨m, a⟩ := head
    by_cases listed : m ∈ names
    · by_cases same : k = m <;> simp_all [lookup_cons_eq]
    · rw [List.filter_cons_of_neg (by simpa using listed), ih, lookup_cons_eq]
      by_cases same : k = m <;> simp [same, listed]

theorem restrict_nil (d : Dict α) : d.restrict [] = empty :=
  ext_find? fun k => by simp [find?_restrict]

theorem insert_restrict {names : List String} (found : d.find? name = some a) :
    (d.restrict names).insert name a = d.restrict (name :: names) := by
  refine ext_find? fun k => ?_
  by_cases same : k = name <;> simp [find?_insert, find?_restrict, same, found]

theorem restrict_eq_self {names : List String} (all : ∀ e ∈ d.entries, e.1 ∈ names) :
    d.restrict names = d :=
  ext (List.filter_eq_self.mpr fun e member => decide_eq_true (all e member))

theorem restrict_of_absent {names : List String} (absent : d.find? name = none) :
    d.restrict (name :: names) = d.restrict names := by
  refine ext_find? fun k => ?_
  by_cases same : k = name <;> simp [find?_restrict, same, absent]

end Dict

end Ucan
