import Ucan.Json.Tuple
import Ucan.Proofs.Except
import Ucan.Proofs.Json.Shape

/-!
What a reader makes of any text that it takes: each form of reader hands on what its parts ensure.
-/

set_option autoImplicit false

namespace Ucan.Json

open Ascii

variable {α β σ : Type} {p : α → Prop} {q : β → Prop}

/-- Whatever the reader makes has the property. -/
def Yields (read : Reader α) (p : α → Prop) : Prop :=
  ∀ s a r, read s = .ok (a, r) → p a

theorem Yields.imp {read : Reader α} {p' : α → Prop} (yields : Yields read p)
    (weaker : ∀ a, p a → p' a) : Yields read p' :=
  fun s a r taken => weaker a (yields s a r taken)

theorem yields_true (read : Reader α) : Yields read fun _ => True :=
  fun _ _ _ _ => trivial

theorem Yields.map {read : Reader α} {f : α → β} (yields : Yields read p)
    (made : ∀ a, p a → q (f a)) : Yields (read.map f) q := by
  intro s b r taken
  unfold Reader.map at taken
  split at taken
  next a r found =>
    cases taken
    exact made a (yields s a _ found)
  · cases taken

theorem Yields.andThen {read : Reader α} {f : α → Except Error β} (yields : Yields read p)
    (made : ∀ a b, p a → f a = .ok b → q b) : Yields (read.andThen f) q := by
  intro s b r taken
  unfold Reader.andThen at taken
  split at taken
  next a r found =>
    obtain ⟨b, done, same⟩ := map_eq_ok.mp taken
    cases same
    exact made a b (yields s a _ found) done
  · cases taken

theorem yields_textOf {ε : Type} (parse : String → Except ε α) (reason : ε → String) :
    Yields (Reader.textOf parse reason) fun a => ∃ text, parse text = .ok a := by
  refine (yields_true Reader.string).andThen fun text a _ made => ⟨text, ?_⟩
  split at made
  next found =>
    cases made
    exact found
  · cases made

theorem Yields.option {read : Reader α} (yields : Yields read p) :
    Yields (Reader.option read) fun o => ∀ a ∈ o, p a := by
  intro s o r taken
  unfold Reader.option at taken
  split at taken
  · cases taken
  split at taken
  · obtain ⟨_, _, made⟩ := map_eq_ok.mp taken
    cases made
    exact nofun
  · refine yields.map (q := fun o => ∀ a ∈ o, p a) ?_ s o r taken
    rintro a holds b member
    cases member
    exact holds

/-! ## Arrays -/

theorem Yields.elementsFrom {whole : Bytes} {element : Reader α} (yields : Yields element p)
    {done : List α} (holds : ∀ a ∈ done, p a) {s : Bytes} {h : s.length ≤ whole.length}
    {as : List α} {r : Rest whole}
    (taken : Reader.elementsFrom element done s h = .ok (as, r)) : ∀ a ∈ as, p a := by
  fun_induction Reader.elementsFrom element done s h with
  | case1 | case2 | case4 | case5 | case7 => cases taken
  | case3 done s h a t found =>
    cases taken
    intro b member
    rcases List.mem_cons.mp (List.mem_reverse.mp member) with rfl | member
    · exact yields _ _ _ found
    · exact holds b member
  | case6 done s h a t found _ _ _ _ _ _ _ ih =>
    exact ih (List.forall_mem_cons.mpr ⟨yields _ _ _ found, holds⟩) taken

theorem Yields.elements {element : Reader α} (yields : Yields element p) :
    Yields (Reader.elements element) fun as => ∀ a ∈ as, p a := by
  intro s as r taken
  unfold Reader.elements at taken
  split at taken
  · cases taken
  split at taken
  · cases taken
    exact nofun
  · exact yields.elementsFrom (List.forall_mem_nil p) taken

theorem Yields.list {element : Reader α} (yields : Yields element p) :
    Yields (Reader.list (some element)) fun as => ∀ a ∈ as, p a := by
  intro s as r taken
  unfold Reader.list at taken
  split at taken
  · cases taken
  split at taken
  · obtain ⟨_, read, same⟩ := map_eq_ok.mp taken
    cases same
    exact yields.elements _ _ _ read
  · cases taken

theorem yields_list_none {q : List α → Prop} : Yields (Reader.list none) q := by
  intro s as r taken
  simp only [Reader.list] at taken
  repeat' split at taken
  all_goals cases taken

/-! ## Objects -/

variable {inv : σ → Prop} {member : σ → String → Except Error (Reader σ)} {state : σ}

theorem yields_membersFrom {whole : Bytes}
    (keeps : ∀ state name read, inv state → member state name = .ok read → Yields read inv)
    (holds : inv state) {s : Bytes} {h : s.length ≤ whole.length} {last : σ} {r : Rest whole}
    (taken : Reader.membersFrom member state s h = .ok (last, r)) : inv last := by
  fun_induction Reader.membersFrom member state s h with
  | case6 state s h name r _ value found t _ u read =>
    cases taken
    exact keeps _ _ _ holds found _ _ _ read
  | case8 state s h name r _ value found t state' u read v _ _ _ _ _ ih =>
    exact ih (keeps _ _ _ holds found _ _ _ read) taken
  | _ => cases taken

theorem yields_members
    (keeps : ∀ state name read, inv state → member state name = .ok read → Yields read inv)
    (holds : inv state) : Yields (Reader.members member state) inv := by
  intro s last r taken
  unfold Reader.members at taken
  split at taken
  · cases taken
  split at taken
  · cases taken
    exact holds
  split at taken
  · exact yields_membersFrom keeps holds taken
  · cases taken

theorem yields_object {wanted : String}
    (keeps : ∀ state name read, inv state → member state name = .ok read → Yields read inv)
    (holds : inv state) : Yields (Reader.object wanted (some member) state) inv := by
  intro s last r taken
  unfold Reader.object at taken
  split at taken
  · cases taken
  split at taken
  · obtain ⟨_, read, same⟩ := map_eq_ok.mp taken
    cases same
    exact yields_members keeps holds _ _ _ read
  · cases taken

theorem yields_object_none {wanted : String} {q : σ → Prop} :
    Yields (Reader.object wanted none state) q := by
  intro s last r taken
  simp only [Reader.object] at taken
  repeat' split at taken
  all_goals cases taken

theorem Yields.dict {value : Reader α} (yields : Yields value p) :
    Yields (Reader.dict (some value)) fun d => ∀ e ∈ d.entries, p e.2 := by
  refine yields_object ?_ nofun
  rintro d name read holds ⟨⟩
  exact yields.map fun a own => forall_insertEntry own holds

theorem Yields.once {name : String} {present : Bool} {read found : Reader α}
    (yields : Yields read p) (taken : Reader.once name present read = .ok found) :
    Yields found p := by
  unfold Reader.once at taken
  split at taken
  · cases taken
  · cases taken
    exact yields

/-! ## Any value -/

variable {inner : Option (Reader Json)}

theorem yields_valueOf {p : Json → Prop} (leaf : ∀ j, j.nesting = 0 → p j)
    (array : ∀ read ∈ inner, Yields (Reader.elements read) fun es => p (.array es))
    (object : ∀ read ∈ inner, Yields (Reader.members (Reader.insertMember read) []) fun ms =>
      p (.object ms)) : Yields (Reader.valueOf inner) p := by
  intro s j r taken
  unfold Reader.valueOf at taken
  split at taken
  · cases taken
  repeat' split at taken
  -- A word, a number, a string, an array and an object are left of the branches.
  all_goals
    first
    | cases taken
      done
    | cases taken
      exact leaf _ rfl
    | obtain ⟨_, read, same⟩ := map_eq_ok.mp taken
      cases same
      first
      | exact leaf _ rfl
      | exact array _ rfl _ _ _ read
      | exact object _ rfl _ _ _ read

theorem first?_of_null {s : Bytes} {r : Rest s} (taken : Reader.valueOf inner s = .ok (.null, r)) :
    ∃ t, first? s = some (0x6E, t) := by
  unfold Reader.valueOf at taken
  split at taken
  · cases taken
  next b t first =>
    by_cases word : b = 0x6E
    · exact ⟨t, word ▸ first⟩
    rw [if_neg word] at taken
    repeat' split at taken
    all_goals
      first
      | cases taken
      | obtain ⟨_, _, same⟩ := map_eq_ok.mp taken
        cases same

theorem yields_value (depth : Nat) : Yields (Reader.value depth) (Fits depth) := by
  induction depth with
  | zero => exact yields_valueOf (fun j flat => fits_of_flat flat) nofun nofun
  | succ depth ih =>
    apply yields_valueOf
    · exact fun j flat => fits_of_flat flat
    · rintro read ⟨⟩
      exact ih.elements.imp fun es each => fits_array.mpr each
    · rintro read ⟨⟩
      refine yields_members ?_ ?_
      · rintro ms name read holds ⟨⟩
        obtain ⟨sorted, each⟩ := fits_object.mp holds
        exact ih.map fun j fits =>
          fits_object.mpr ⟨sorted_alterEntry name _ sorted, forall_insertEntry fits each⟩
      · exact fits_object.mpr ⟨.nil, nofun⟩

theorem yields_option_value (depth : Nat) :
    Yields (Reader.option (Reader.value depth)) fun o => ∀ j ∈ o, Fits depth j ∧ j ≠ .null := by
  intro s o r taken
  unfold Reader.option at taken
  split at taken
  · cases taken
  next b t first =>
    split at taken
    · obtain ⟨_, _, same⟩ := map_eq_ok.mp taken
      cases same
      exact nofun
    next noWord =>
      unfold Reader.map at taken
      split at taken
      next j r read =>
        cases taken
        intro k member
        cases member
        refine ⟨yields_value depth _ _ _ read, ?_⟩
        rintro rfl
        rw [Reader.value_eq] at read
        obtain ⟨t, null⟩ := first?_of_null read
        rw [first] at null
        cases null
        exact noWord rfl
      · cases taken

/-! ## At every depth -/

variable {read : Nat → Reader α} {toJson : α → Json}

/-- What is written of what was read fits where it was read. -/
def Confined (read : Nat → Reader α) (toJson : α → Json) : Prop :=
  ∀ depth, Yields (read depth) fun a => Fits depth (toJson a)

theorem confined_list (confined : Confined read toJson) :
    Confined (fun depth => Reader.list (Reader.within read depth))
      fun as => .array (as.map toJson) := by
  intro depth
  cases depth with
  | zero => exact yields_list_none
  | succ depth =>
    refine (confined depth).list.imp fun as each => ?_
    rw [fits_array, List.forall_mem_map]
    exact each

theorem confined_dict (confined : Confined read toJson) :
    Confined (fun depth => Reader.dict (Reader.within read depth))
      fun d => .object (d.entries.map fun e => (e.1, toJson e.2)) := by
  intro depth
  cases depth with
  | zero => exact yields_object_none
  | succ depth =>
    refine (confined depth).dict.imp fun d each => ?_
    rw [fits_object, List.forall_mem_map]
    exact ⟨d.sorted_map _, each⟩

theorem confined_memberDict : Confined Reader.memberDict ofMembers := by
  intro depth
  have values : Confined Reader.value id := yields_value
  have dict := confined_dict values depth
  refine dict.imp fun m fits => ?_
  have same : m.entries.map (fun e => (e.1, id e.2)) = m.entries := List.map_id' _
  simp only [same] at fits
  exact fits

theorem Yields.parse {read : Reader α} (yields : Yields read p) {s : Bytes} {a : α}
    (parsed : Reader.parse read s = .ok a) : p a := by
  unfold Reader.parse at parsed
  split at parsed
  · cases parsed
  next a r taken =>
    split at parsed
    · cases parsed
      exact yields s _ r taken
    · cases parsed

end Ucan.Json
