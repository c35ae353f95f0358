import Ucan.Dict

/-!
JSON values. An object is a list of members. The reader keeps them sorted by name at every level,
and `Json.sort` brings any value into that form.
-/

set_option autoImplicit false

namespace Ucan

namespace Json

/-- The integers that are kept exactly: those of 64 bits, signed or unsigned. -/
def IsExact (n : Int) : Prop := -0x8000000000000000 ≤ n ∧ n < 0x10000000000000000

instance (n : Int) : Decidable (IsExact n) := inferInstanceAs (Decidable (_ ∧ _))

/-- A number is an exact integer, or else a double, given by its bits. -/
inductive Number where
  | integer (value : Int) (exact : IsExact value)
  | double (bits : UInt64)
  deriving DecidableEq

def Number.ofUInt64 (n : UInt64) : Number :=
  .integer n.toNat ⟨by omega, by have := n.toNat_lt; omega⟩

end Json

inductive Json where
  | null
  | bool (value : Bool)
  | number (value : Json.Number)
  | string (value : String)
  | array (elements : List Json)
  | object (members : List (String × Json))

namespace Json

instance : Inhabited Json := ⟨null⟩

mutual

def beq : Json → Json → Bool
  | .null, .null => true
  | .bool a, .bool b => a == b
  | .number a, .number b => a == b
  | .string a, .string b => a == b
  | .array a, .array b => beqElements a b
  | .object a, .object b => beqMembers a b
  | _, _ => false

def beqElements : List Json → List Json → Bool
  | [], [] => true
  | a :: as, b :: bs => beq a b && beqElements as bs
  | _, _ => false

def beqMembers : List (String × Json) → List (String × Json) → Bool
  | [], [] => true
  | (k, a) :: as, (m, b) :: bs => k == m && beq a b && beqMembers as bs
  | _, _ => false

end

mutual

theorem beq_iff : (a b : Json) → (beq a b = true ↔ a = b)
  | .array as, b => by cases b <;> simp [beq, beqElements_iff as]
  | .object as, b => by cases b <;> simp [beq, beqMembers_iff as]
  | .null, b | .bool _, b | .number _, b | .string _, b => by cases b <;> simp [beq]

theorem beqElements_iff : (as bs : List Json) → (beqElements as bs = true ↔ as = bs)
  | [], bs => by cases bs <;> simp [beqElements]
  | a :: as, bs => by cases bs <;> simp [beqElements, beq_iff a, beqElements_iff as]

theorem beqMembers_iff :
    (as bs : List (String × Json)) → (beqMembers as bs = true ↔ as = bs)
  | [], bs => by cases bs <;> simp [beqMembers]
  | (k, a) :: as, bs => by
    cases bs with
    | nil => simp [beqMembers]
    | cons head bs => obtain ⟨m, b⟩ := head; simp [beqMembers, beq_iff a, beqMembers_iff as]

end

instance : DecidableEq Json := fun a b => decidable_of_iff _ (beq_iff a b)

mutual

/-- The value with the members of each object in the order of their names; of two members of one
name the last stays. -/
def sort : Json → Json
  | .array elements => .array (sortElements elements)
  | .object members => .object (sortMembers members)
  | .null => .null
  | .bool b => .bool b
  | .number n => .number n
  | .string s => .string s

def sortElements : List Json → List Json
  | [] => []
  | a :: as => sort a :: sortElements as

def sortMembers : List (String × Json) → List (String × Json)
  | [] => []
  | (name, a) :: as => alterEntry name (fun later => later.getD (sort a)) (sortMembers as)

end

theorem sorted_sortMembers (members : List (String × Json)) : Sorted (sortMembers members) := by
  induction members with
  | nil => exact .nil
  | cons head rest ih => exact sorted_alterEntry _ _ ih

end Json

abbrev Members := Dict Json

def Json.ofMembers (m : Members) : Json := .object m.entries

end Ucan
