import Ucan.Proofs.Json.Mirrors
import Ucan.Proofs.Json.TakesAll

/-!
A reader takes the text of a value only where the value may be nested as deep as it is.
-/

set_option autoImplicit false

namespace Ucan.Json

open Ascii

variable {α β σ : Type} {j : Json} {depth : Nat}

/-- Somewhere the reader takes the text of the value. -/
def Accepts (read : Reader α) (j : Json) : Prop :=
  ∃ rest s a r, Ends rest ∧ s = print j ++ rest ∧ read s = .ok (a, r)

variable {read : Reader α} {s rest : Bytes} {b : UInt8}

theorem Accepts.of_map {f : α → β} (accepts : Accepts (read.map f) j) : Accepts read j := by
  obtain ⟨rest, s, b, r, ends, text, taken⟩ := accepts
  unfold Reader.map at taken
  split at taken
  next a r found => exact ⟨rest, s, a, r, ends, text, found⟩
  next => cases taken

theorem accepts_of_elementsFrom {whole : Bytes} (all : TakesAll read) {more : List Json}
    {done as : List α} {h : s.length ≤ whole.length} {r : Rest whole}
    (text : s = j.print ++ (printMore more ++ closeBracket :: rest))
    (taken : Reader.elementsFrom read done s h = .ok (as, r)) :
    ∀ k ∈ j :: more, Accepts read k := by
  fun_induction Reader.elementsFrom read done s h generalizing j more with
  | case1 | case2 | case4 | case5 | case7 => cases taken
  | case3 done s h a t found u first =>
    have ends := ends_printMore more rest
    have after := all j _ s a t ends text found
    cases more with
    | nil =>
      rw [List.forall_mem_singleton]
      exact ⟨_, s, a, t, ends, text, found⟩
    | cons k more => cases (eq_of_first? rfl after first).1
  | case6 done s h a t found u _ _ _ _ first _ ih =>
    have ends := ends_printMore more rest
    have after := all j _ s a t ends text found
    cases more with
    | nil => cases (eq_of_first? rfl after first).1
    | cons k more =>
      have next := (eq_of_first? rfl after first).2
      refine List.forall_mem_cons.mpr ⟨⟨_, s, a, t, ends, text, found⟩, ?_⟩
      exact ih (next.trans (List.append_assoc _ _ _)) taken

theorem accepts_of_elements (all : TakesAll read) {elements : List Json} {as : List α} {r : Rest s}
    (text : s = printElements elements ++ closeBracket :: rest)
    (taken : Reader.elements read s = .ok (as, r)) : ∀ k ∈ elements, Accepts read k := by
  unfold Reader.elements at taken
  split at taken
  next => cases taken
  next b t first =>
    cases elements with
    | nil => simp
    | cons k more =>
      rw [printElements_cons, List.append_assoc] at text
      obtain ⟨begins, -⟩ := begins_first? text first
      split at taken
      next closes =>
        -- No value begins with the bracket that ends the array.
        subst closes
        cases begins with
        | magnitude n start => cases start
      next => exact accepts_of_elementsFrom all text taken

theorem Passes.accepts {member : σ → String → Except Error (Reader σ)} {state last : σ}
    {members : List (String × Json)} (passes : Passes member state members last) :
    ∀ m ∈ members, ∃ state read, member state m.1 = .ok read ∧ Accepts read m.2 := by
  induction passes with
  | nil => simp
  | cons found ends text taken _ ih =>
    exact List.forall_mem_cons.mpr ⟨⟨_, _, found, _, _, _, _, ends, text, taken⟩, ih⟩

theorem value_zero_of_bracket {t : Rest s} (first : first? s = some (openBracket, t)) :
    Reader.value 0 s = .error .tooDeep := by
  rw [Reader.value, Reader.valueOf, first]
  rfl

theorem value_zero_of_brace {t : Rest s} (first : first? s = some (openBrace, t)) :
    Reader.value 0 s = .error .tooDeep := by
  rw [Reader.value, Reader.valueOf, first]
  rfl

theorem accepts_of_array {elements : List Json}
    (accepts : Accepts (Reader.value depth) (.array elements)) :
    ∃ inner, depth = inner + 1 ∧ ∀ k ∈ elements, Accepts (Reader.value inner) k := by
  obtain ⟨rest, s, a, r, _, text, taken⟩ := accepts
  rw [print_array_append] at text
  subst text
  cases depth with
  | zero =>
    rw [value_zero_of_bracket (first?_cons rfl _)] at taken
    cases taken
  | succ inner =>
    rw [value_of_bracket (first?_cons rfl _)] at taken
    obtain ⟨_, found, _⟩ := map_eq_ok.mp taken
    exact ⟨inner, rfl, accepts_of_elements (takesAll_value inner) rfl found⟩

theorem accepts_of_object {members : List (String × Json)}
    (accepts : Accepts (Reader.value depth) (.object members)) :
    ∃ inner, depth = inner + 1 ∧ ∀ m ∈ members, Accepts (Reader.value inner) m.2 := by
  obtain ⟨rest, s, a, r, _, text, taken⟩ := accepts
  rw [print_object_append] at text
  subst text
  cases depth with
  | zero =>
    rw [value_zero_of_brace (first?_cons rfl _)] at taken
    cases taken
  | succ inner =>
    rw [value_of_brace (first?_cons rfl _)] at taken
    obtain ⟨_, found, _⟩ := map_eq_ok.mp taken
    have all : ∀ state name read, Reader.insertMember (Reader.value inner) state name = .ok read →
        TakesAll read := by
      intro state name read made
      cases made
      exact (takesAll_value inner).map _
    have passes := (passes_members all (print_object_append members rest).symm found).2
    refine ⟨inner, rfl, fun m member => ?_⟩
    obtain ⟨state, read, made, accepts⟩ := passes.accepts m member
    cases made
    exact accepts.of_map

theorem nesting_le_of_accepts (accepts : Accepts (Reader.value depth) j) : j.nesting ≤ depth := by
  induction depth using Nat.strongRecOn generalizing j with
  | ind depth ih =>
    cases j with
    | array elements =>
      obtain ⟨inner, rfl, inside⟩ := accepts_of_array accepts
      exact nesting_array_le.mpr fun k member => ih inner (Nat.lt_succ_self _) (inside k member)
    | object members =>
      obtain ⟨inner, rfl, inside⟩ := accepts_of_object accepts
      exact nesting_object_le.mpr fun m member => ih inner (Nat.lt_succ_self _) (inside m member)
    | _ => exact Nat.zero_le _

/-- What is read as it was written wherever it fits is never read as anything else: where it does
not fit, it is not read at all. -/
theorem Faithful.yieldsOf {read : Nat → Reader α} {toJson : α → Json} {R : α → Json → Prop} {a : α}
    (faithful : Faithful read toJson a) (mirrors : Mirrors (read depth) depth R)
    (ordered : (toJson a).Ordered) (integral : (toJson a).Integral) :
    YieldsOf (read depth) (toJson a) (· = a) := by
  intro rest s b r ends text taken
  obtain ⟨k, value, _⟩ := mirrors s b r taken
  have shallow : (toJson a).nesting ≤ depth :=
    nesting_le_of_accepts ⟨rest, s, k, r, ends, text, value⟩
  exact (faithful depth ⟨ordered, shallow⟩ integral).yieldsOf rest s b r ends text taken

end Ucan.Json
