import Ucan.Proofs.Json.Alike
import Ucan.Proofs.Json.Depth

/-!
The compact text of a value is that of no other, with its members in the same order or not. So it can
be said of the canonical text which value it is the text of: the one with all members sorted, which is
read again unless it is nested too deep.
-/

set_option autoImplicit false

namespace Ucan.Json

open Ascii

variable {j k : Json} {rest tail : Bytes}

/-! ## The compact text tells the value -/

/-- If the two texts are the same up to something that ends them, so are the values. -/
def Separate (j k : Json) : Prop :=
  ∀ rest tail, Ends rest → Ends tail → j.print ++ rest = k.print ++ tail → j = k ∧ rest = tail

theorem Takes.unique {α : Type} {read : Reader α} {s : Bytes} {a b : α} (taken : Takes read s a rest)
    (again : Takes read s b tail) : a = b ∧ rest = tail := by
  obtain ⟨_, taken⟩ := taken
  obtain ⟨_, again⟩ := again
  cases taken.symm.trans again
  exact ⟨rfl, rfl⟩

theorem escape_append_injective {s t : String}
    (same : (utf8 s).flatMap escapeByte ++ quote :: rest =
      (utf8 t).flatMap escapeByte ++ quote :: tail) : s = t ∧ rest = tail := by
  have taken : Takes takeString _ s rest := takeString_print s rest
  have again : Takes takeString _ t tail := takeString_print t tail
  rw [same] at taken
  exact taken.unique again

theorem separate_of_flat (flat : j.nesting = 0) (otherFlat : k.nesting = 0) (exact : j.HasExactNumber)
    (otherExact : k.HasExactNumber) : Separate j k := by
  intro rest tail ends otherEnds same
  have taken := reads_leaf none flat exact rest ends
  have again := reads_leaf none otherFlat otherExact tail otherEnds
  rw [same] at taken
  exact taken.unique again

theorem begins_of_append {b : UInt8} {s : Bytes} (text : j.print ++ rest = b :: s) : j.Begins b := by
  obtain ⟨first, _, printed, begins⟩ := exists_begins j
  rw [printed] at text
  exact (List.cons.inj text).1 ▸ begins

theorem printMore_append_injective {elements others : List Json}
    (each : ∀ a ∈ elements, ∀ b ∈ others, Separate a b)
    (same : printMore elements ++ closeBracket :: rest = printMore others ++ closeBracket :: tail) :
    elements = others ∧ rest = tail := by
  induction elements generalizing others with
  | nil =>
    cases others with
    | nil => exact ⟨rfl, (List.cons.inj same).2⟩
    | cons b others => cases (List.cons.inj same).1
  | cons a elements ih =>
    cases others with
    | nil => cases (List.cons.inj same).1
    | cons b others =>
      have texts : a.print ++ (printMore elements ++ closeBracket :: rest) =
          b.print ++ (printMore others ++ closeBracket :: tail) := by
        simpa [printMore] using same
      obtain ⟨rfl, later⟩ := each a List.mem_cons_self b List.mem_cons_self _ _
        (ends_printMore elements rest) (ends_printMore others tail) texts
      obtain ⟨rfl, left⟩ := ih (fun c inside d other =>
        each c (List.mem_cons_of_mem _ inside) d (List.mem_cons_of_mem _ other)) later
      exact ⟨rfl, left⟩

theorem printElements_append_injective {elements others : List Json}
    (each : ∀ a ∈ elements, ∀ b ∈ others, Separate a b)
    (same : printElements elements ++ closeBracket :: rest =
      printElements others ++ closeBracket :: tail) : elements = others ∧ rest = tail := by
  -- With a comma in front, an array that is not empty has the same text as the rest of one.
  cases elements with
  | nil =>
    cases others with
    | nil => exact ⟨rfl, (List.cons.inj same).2⟩
    | cons b others =>
      obtain ⟨first, _, text, begins⟩ := exists_begins b
      rw [printElements_cons, text] at same
      exact absurd (List.cons.inj same).1.symm begins.ne_closeBracket
  | cons a elements =>
    cases others with
    | nil =>
      obtain ⟨first, _, text, begins⟩ := exists_begins a
      rw [printElements_cons, text] at same
      exact absurd (List.cons.inj same).1 begins.ne_closeBracket
    | cons b others =>
      rw [printElements_cons, printElements_cons] at same
      exact printMore_append_injective each (congrArg (comma :: ·) same)

theorem memberText_injective {name other : String} (apart : Separate j k) (ends : Ends rest)
    (otherEnds : Ends tail) (same : memberText name j rest = memberText other k tail) :
    name = other ∧ j = k ∧ rest = tail := by
  obtain ⟨names, values⟩ := escape_append_injective same
  exact ⟨names, apart rest tail ends otherEnds (List.cons.inj values).2⟩

theorem printOthers_append_injective {members others : List (String × Json)}
    (each : ∀ m ∈ members, ∀ n ∈ others, Separate m.2 n.2)
    (same : printOthers members ++ closeBrace :: rest = printOthers others ++ closeBrace :: tail) :
    members = others ∧ rest = tail := by
  induction members generalizing others with
  | nil =>
    cases others with
    | nil => exact ⟨rfl, (List.cons.inj same).2⟩
    | cons n others => cases (List.cons.inj same).1
  | cons m members ih =>
    cases others with
    | nil => cases (List.cons.inj same).1
    | cons n others =>
      obtain ⟨name, a⟩ := m
      obtain ⟨other, b⟩ := n
      rw [printOthers_cons, printOthers_cons] at same
      obtain ⟨rfl, rfl, later⟩ := memberText_injective
        (each _ List.mem_cons_self _ List.mem_cons_self) (ends_printOthers members rest)
        (ends_printOthers others tail) (List.cons.inj (List.cons.inj same).2).2
      obtain ⟨rfl, left⟩ := ih (fun c inside d other =>
        each c (List.mem_cons_of_mem _ inside) d (List.mem_cons_of_mem _ other)) later
      exact ⟨rfl, left⟩

theorem printMembers_append_injective {members others : List (String × Json)}
    (each : ∀ m ∈ members, ∀ n ∈ others, Separate m.2 n.2)
    (same : printMembers members ++ closeBrace :: rest =
      printMembers others ++ closeBrace :: tail) : members = others ∧ rest = tail := by
  cases members with
  | nil =>
    cases others with
    | nil => exact ⟨rfl, (List.cons.inj same).2⟩
    | cons n others =>
      rw [printMembers_cons_append] at same
      cases (List.cons.inj same).1
  | cons m members =>
    cases others with
    | nil =>
      rw [printMembers_cons_append] at same
      cases (List.cons.inj same).1
    | cons n others =>
      apply printOthers_append_injective each
      rw [printMembers_cons_append, printMembers_cons_append] at same
      rw [printOthers_cons, printOthers_cons]
      exact congrArg (comma :: ·) same

theorem separate_of_integral (integral : j.Integral) (otherIntegral : k.Integral) : Separate j k := by
  induction j using induction_children generalizing k with
  | step j ih =>
    -- Containers are told by their brackets, and all else is read on its own.
    by_cases flat : j.nesting = 0
    next =>
      by_cases otherFlat : k.nesting = 0
      next => exact separate_of_flat flat otherFlat integral.exact otherIntegral.exact
      next =>
        intro rest tail ends otherEnds same
        cases k with
        | array others =>
          rw [print_array_append] at same
          obtain ⟨elements, rfl⟩ := (begins_of_append same).eq_array
          cases flat
        | object others =>
          rw [print_object_append] at same
          obtain ⟨members, rfl⟩ := (begins_of_append same).eq_object
          cases flat
        | _ => exact absurd rfl otherFlat
    next =>
      intro rest tail ends otherEnds same
      cases j with
      | array elements =>
        rw [print_array_append] at same
        obtain ⟨others, rfl⟩ := (begins_of_append same.symm).eq_array
        rw [integral_array] at integral otherIntegral
        rw [print_array_append] at same
        obtain ⟨rfl, left⟩ := printElements_append_injective
          (fun a inside b other => ih a inside (integral a inside) (otherIntegral b other))
          (List.cons.inj same).2
        exact ⟨rfl, left⟩
      | object members =>
        rw [print_object_append] at same
        obtain ⟨others, rfl⟩ := (begins_of_append same.symm).eq_object
        rw [integral_object] at integral otherIntegral
        rw [print_object_append] at same
        obtain ⟨rfl, left⟩ := printMembers_append_injective
          (fun m inside n other => ih m.2 (List.mem_map_of_mem inside) (integral m inside)
            (otherIntegral n other)) (List.cons.inj same).2
        exact ⟨rfl, left⟩
      | _ => exact absurd rfl flat

theorem eq_of_print (integral : j.Integral) (otherIntegral : k.Integral) (same : j.print = k.print) :
    j = k := by
  have texts : j.print ++ [] = k.print ++ [] := by rw [same]
  exact (separate_of_integral integral otherIntegral [] [] ends_nil ends_nil texts).1

/-! ## How deep a sorted value is nested -/

theorem mem_sortMembers {members : List (String × Json)} {m : String × Json}
    (distinct : (members.map (·.1)).Nodup) (member : m ∈ members) :
    (m.1, m.2.sort) ∈ sortMembers members := by
  have found : members.lookup m.1 = some m.2 := lookup_of_mem distinct member
  apply mem_of_lookup
  rw [lookup_sortMembers distinct, found]
  rfl

theorem nesting_sort_le_iff (distinct : j.Distinct) {depth : Nat} :
    j.sort.nesting ≤ depth ↔ j.nesting ≤ depth := by
  induction j using induction_children generalizing depth with
  | step j ih =>
    cases j with
    | array elements =>
      rw [distinct_array] at distinct
      cases depth with
      | zero => simp [sort, nesting]
      | succ depth =>
        rw [sort, sortElements_eq_map, nesting_array_le, nesting_array_le, List.forall_mem_map]
        exact forall₂_congr fun a inside => ih a inside (distinct a inside)
    | object members =>
      obtain ⟨names, distinct⟩ := distinct_object.mp distinct
      cases depth with
      | zero => simp [sort, nesting]
      | succ depth =>
        rw [sort, nesting_object_le, nesting_object_le]
        have each (m : String × Json) (inside : m ∈ members) :
            m.2.sort.nesting ≤ depth ↔ m.2.nesting ≤ depth :=
          ih m.2 (List.mem_map_of_mem inside) (distinct m inside)
        constructor
        next =>
          intro shallow m inside
          exact (each m inside).mp (shallow _ (mem_sortMembers names inside))
        next =>
          intro shallow m inside
          obtain ⟨old, there, rfl⟩ := exists_of_mem_sortMembers names inside
          exact (each old there).mpr (shallow old there)
    | _ => rfl

/-! ## The canonical text -/

theorem accepts_of_parse {l : Json} (read : parse j.print = .ok l) :
    Accepts (Reader.value maxDepth) j := by
  unfold parse Reader.parse at read
  split at read
  next => cases read
  next found => exact ⟨[], _, _, _, ends_nil, (List.append_nil _).symm, found⟩

theorem parse_canonical_eq_ok_iff (distinct : j.Distinct) (integral : j.Integral) {l : Json} :
    parse j.canonical = .ok l ↔ l = j.sort ∧ j.nesting ≤ maxDepth := by
  have ordered := ordered_sort distinct
  have reads (shallow : j.nesting ≤ maxDepth) : parse j.canonical = .ok j.sort :=
    parse_of_reads (reads_value ⟨ordered, (nesting_sort_le_iff distinct).mpr shallow⟩
      (integral_sort distinct integral))
  constructor
  next =>
    intro read
    have shallow : j.nesting ≤ maxDepth :=
      (nesting_sort_le_iff distinct).mp (nesting_le_of_accepts (accepts_of_parse read))
    rw [reads shallow] at read
    exact ⟨(Except.ok.inj read).symm, shallow⟩
  next =>
    rintro ⟨rfl, shallow⟩
    exact reads shallow

theorem distinct_of_ordered (ordered : j.Ordered) : j.Distinct := by
  intro k inside
  have sorted := ordered k inside
  cases k with
  | object members => exact Sorted.nodup sorted
  | _ => trivial

theorem sort_sort (distinct : j.Distinct) : j.sort.sort = j.sort := sort_of_ordered (ordered_sort distinct)

theorem alike_sort (distinct : j.Distinct) : Alike j j.sort :=
  (sort_eq_sort_iff distinct (distinct_of_ordered (ordered_sort distinct))).mp
    (sort_sort distinct).symm

/-- Values have the same canonical text when they differ in nothing but the order of members. It is
the compact text of one value, which has the members of all objects in order. The text is read up to
as many containers inside one another as any is, and then has itself as its canonical text. -/
theorem canonical_exact (j k : Json) (distinct : j.Distinct) (otherDistinct : k.Distinct)
    (integral : j.Integral) (otherIntegral : k.Integral) :
    (j.canonical = k.canonical ↔ Alike j k) ∧
    (∃ l : Json, l.Ordered ∧ l.Integral ∧ Alike j l ∧
      ∀ other : Json, other.Integral → (other.print = j.canonical ↔ other = l)) ∧
    (∀ l : Json, parse j.canonical = .ok l → l.canonical = j.canonical) ∧
    ((∃ l, parse j.canonical = .ok l) ↔ j.nesting ≤ maxDepth) := by
  have sorted := integral_sort distinct integral
  refine ⟨canonical_eq_canonical_iff distinct otherDistinct integral otherIntegral,
    ⟨j.sort, ordered_sort distinct, sorted, alike_sort distinct, ?_⟩, ?_, ?_⟩
  next => exact fun other whole => ⟨eq_of_print whole sorted, congrArg print⟩
  next =>
    intro l read
    obtain ⟨rfl, -⟩ := (parse_canonical_eq_ok_iff distinct integral).mp read
    rw [canonical, canonical, sort_sort distinct]
  next =>
    constructor
    next =>
      rintro ⟨l, read⟩
      exact ((parse_canonical_eq_ok_iff distinct integral).mp read).2
    next =>
      intro shallow
      exact ⟨_, (parse_canonical_eq_ok_iff distinct integral).mpr ⟨rfl, shallow⟩⟩

theorem canonical_exact_of_inner_object :
    let number : Json := .number (.integer (-1) (by decide))
    let j : Json := .object [("b", number), ("a", .array [.object [("é", .null), ("z", .string "\"")]])]
    let k : Json := .object [("a", .array [.object [("z", .string "\""), ("é", .null)]]), ("b", number)]
    j.Distinct ∧ k.Distinct ∧ j.Integral ∧ k.Integral ∧ j ≠ k ∧ j.canonical = k.canonical ∧
      j.canonical = utf8 "\x7b\"a\":[\x7b\"z\":\"\\\"\",\"é\":null\x7d],\"b\":-1\x7d" ∧
      ∃ l, parse j.canonical = .ok l ∧ l.canonical = j.canonical := by
  intro number j k
  have distinct : j.Distinct := by decide
  have otherDistinct : k.Distinct := by decide
  have integral : j.Integral := by decide
  have otherIntegral : k.Integral := by decide
  have alike : Alike j k := (sort_eq_sort_iff distinct otherDistinct).mp (by decide)
  obtain ⟨same, -, again, read⟩ :=
    canonical_exact j k distinct otherDistinct integral otherIntegral
  obtain ⟨l, read⟩ := read.mpr (by decide)
  exact ⟨distinct, otherDistinct, integral, otherIntegral, by decide, same.mpr alike,
    by decide +kernel, l, read, again l read⟩

def nested : Nat → Json
  | 0 => .null
  | depth + 1 => .array [nested depth]

/-- A value may be nested deeper than its text is read. -/
theorem not_parse_canonical :
    (nested 128).Distinct ∧ (nested 128).Integral ∧
      parse (nested 128).canonical = .error .tooDeep ∧
      ¬∀ j : Json, j.Distinct → j.Integral →
        ∃ l, parse j.canonical = .ok l ∧ l.canonical = j.canonical := by
  have distinct : (nested 128).Distinct := by decide +kernel
  have integral : (nested 128).Integral := by decide +kernel
  have refused : parse (nested 128).canonical = .error .tooDeep := by decide +kernel
  refine ⟨distinct, integral, refused, fun claim => ?_⟩
  obtain ⟨l, read, -⟩ := claim _ distinct integral
  cases refused.symm.trans read

end Ucan.Json
