import Ucan.Bytes

/-!
Dictionaries from names to values, kept in the bytewise order of the names' UTF-8 forms, so that
two dictionaries with the same members are equal.
-/

set_option autoImplicit false

namespace Ucan

universe u v

/-- A name comes before another when its UTF-8 form does. -/
abbrev Before (a b : String) : Prop := utf8 a < utf8 b

theorem before_trichotomy (a b : String) : Before a b ∨ a = b ∨ Before b a := by
  by_cases h : utf8 a < utf8 b
  · exact .inl h
  · by_cases h' : utf8 b < utf8 a
    · exact .inr (.inr h')
    · exact .inr (.inl (utf8_injective
        (List.le_antisymm (List.not_lt.mp h') (List.not_lt.mp h))))

variable {α : Type u} {β : Type v}

/-- Gives the member of that name the value computed from the one it has, in its place in the order. -/
def alterEntry (name : String) (f : Option α → α) : List (String × α) → List (String × α)
  | [] => [(name, f none)]
  | (k, a) :: rest =>
    if name = k then (k, f (some a)) :: rest
    else if Before name k then (name, f none) :: (k, a) :: rest
    else (k, a) :: alterEntry name f rest

/-- Adds a member in its place in the order; it takes the place of one of the same name. -/
def insertEntry (name : String) (a : α) : List (String × α) → List (String × α) :=
  alterEntry name fun _ => a

/-- The members' names come in strictly increasing order. -/
def Sorted (entries : List (String × α)) : Prop :=
  entries.Pairwise fun a b => Before a.1 b.1

theorem mem_alterEntry {name : String} {f : Option α → α} {entries : List (String × α)}
    {e : String × α} (h : e ∈ alterEntry name f entries) : e.1 = name ∨ e ∈ entries := by
  induction entries with
  | nil => simp_all [alterEntry]
  | cons head rest ih =>
    obtain ⟨k, a⟩ := head
    simp only [alterEntry] at h
    split at h
    · subst name; rcases List.mem_cons.mp h with rfl | h <;> simp_all
    · split at h
      · rcases List.mem_cons.mp h with rfl | h <;> simp_all
      · rcases List.mem_cons.mp h with rfl | h
        · simp
        · exact (ih h).imp_right (List.mem_cons_of_mem _)

theorem sorted_alterEntry (name : String) (f : Option α → α) {entries : List (String × α)}
    (h : Sorted entries) : Sorted (alterEntry name f entries) := by
  induction entries with
  | nil => simp [alterEntry, Sorted]
  | cons head rest ih =>
    obtain ⟨k, a⟩ := head
    obtain ⟨hk, hr⟩ := List.pairwise_cons.mp h
    simp only [alterEntry]
    split
    · exact List.pairwise_cons.mpr ⟨hk, hr⟩
    · split
      · refine List.pairwise_cons.mpr ⟨?_, h⟩
        intro e he
        rcases List.mem_cons.mp he with rfl | he
        · assumption
        · exact List.lt_trans (by assumption) (hk e he)
      · refine List.pairwise_cons.mpr ⟨?_, ih hr⟩
        intro e he
        rcases mem_alterEntry he with he | he
        · rw [he]
          rcases before_trichotomy name k with h | h | h <;> simp_all
        · exact hk e he

structure Dict (α : Type u) where
  entries : List (String × α)
  sorted : Sorted entries
  deriving DecidableEq

namespace Dict

def empty : Dict α := ⟨[], .nil⟩

instance : Inhabited (Dict α) := ⟨empty⟩

def alter (d : Dict α) (name : String) (f : Option α → α) : Dict α :=
  ⟨alterEntry name f d.entries, sorted_alterEntry name f d.sorted⟩

/-- Adds a member; it takes the place of one of the same name. -/
def insert (d : Dict α) (name : String) (a : α) : Dict α :=
  ⟨insertEntry name a d.entries, sorted_alterEntry name _ d.sorted⟩

/-- Adds the members one after another: of two with one name the last stays. -/
def insertAll (d : Dict α) (entries : List (String × α)) : Dict α :=
  entries.foldl (fun d e => d.insert e.1 e.2) d

def ofList (entries : List (String × α)) : Dict α := empty.insertAll entries

def find? (d : Dict α) (name : String) : Option α := d.entries.lookup name

def isEmpty (d : Dict α) : Bool := d.entries.isEmpty

theorem ext {d e : Dict α} (h : d.entries = e.entries) : d = e := by
  cases d; cases e; simp_all

end Dict

theorem lookup_cons_eq (k m : String) (a : α) (entries : List (String × α)) :
    ((m, a) :: entries).lookup k = if k = m then some a else entries.lookup k := by
  by_cases h : k = m
  · simp [h]
  · simp [List.lookup_cons, h, beq_false_of_ne h]

theorem lookup_eq_none_of_before {name : String} {entries : List (String × α)}
    (h : ∀ e ∈ entries, Before name e.1) : entries.lookup name = none := by
  induction entries with
  | nil => rfl
  | cons head rest ih =>
    have hne : name ≠ head.1 := fun e => List.lt_irrefl _ (e ▸ h head (by simp))
    rw [lookup_cons_eq, if_neg hne]
    exact ih fun e he => h e (by simp [he])

theorem lookup_alterEntry (name k : String) (f : Option α → α) {entries : List (String × α)}
    (h : Sorted entries) :
    (alterEntry name f entries).lookup k =
      if k = name then some (f (entries.lookup name)) else entries.lookup k := by
  induction entries with
  | nil => simp [alterEntry, lookup_cons_eq]
  | cons head rest ih =>
    obtain ⟨m, a⟩ := head
    obtain ⟨hm, hr⟩ := List.pairwise_cons.mp h
    simp only [alterEntry, lookup_cons_eq]
    split
    · subst name
      by_cases hk : k = m <;> simp [lookup_cons_eq, hk]
    · rename_i hne
      split
      · rename_i hlt
        rw [lookup_eq_none_of_before fun e he => List.lt_trans hlt (hm e he)]
        simp only [lookup_cons_eq]
      · rw [lookup_cons_eq, ih hr]
        by_cases hk : k = m
        · simp [hk, Ne.symm hne]
        · simp [hk]

namespace Dict

theorem find?_alter (d : Dict α) (name k : String) (f : Option α → α) :
    (d.alter name f).find? k = if k = name then some (f (d.find? name)) else d.find? k :=
  lookup_alterEntry name k f d.sorted

theorem find?_insert (d : Dict α) (name k : String) (a : α) :
    (d.insert name a).find? k = if k = name then some a else d.find? k :=
  lookup_alterEntry name k _ d.sorted

end Dict

end Ucan
