import Ucan.Proofs.Json.Reads
import Ucan.Proofs.Json.Yields

/-!
A reader that wants something of a value takes no other text than the reader of any value does. So
what it makes can be compared with the value that stands there.
-/

set_option autoImplicit false

namespace Ucan.Json

open Ascii

variable {α β σ : Type} {depth : Nat} {R : α → Json → Prop} {S : β → Json → Prop}

/-- Wherever the reader takes a text, this is the text of one value, to which the relation holds. -/
def Mirrors (read : Reader α) (depth : Nat) (R : α → Json → Prop) : Prop :=
  ∀ s a r, read s = .ok (a, r) → ∃ j, Reader.value depth s = .ok (j, r) ∧ R a j

theorem Mirrors.imp {read : Reader α} {R' : α → Json → Prop} (mirrors : Mirrors read depth R)
    (weaker : ∀ a j, R a j → R' a j) : Mirrors read depth R' := by
  intro s a r taken
  have ⟨j, same, related⟩ := mirrors s a r taken
  exact ⟨j, same, weaker a j related⟩

theorem Mirrors.and {read : Reader α} {p : α → Prop} (mirrors : Mirrors read depth R)
    (yields : Yields read p) : Mirrors read depth fun a j => p a ∧ R a j := by
  intro s a r taken
  have ⟨j, same, related⟩ := mirrors s a r taken
  exact ⟨j, same, yields s a r taken, related⟩

theorem Mirrors.map {read : Reader α} {f : α → β} (mirrors : Mirrors read depth R)
    (made : ∀ a j, R a j → S (f a) j) : Mirrors (read.map f) depth S := by
  intro s b r taken
  unfold Reader.map at taken
  split at taken
  next a r found =>
    cases taken
    have ⟨j, same, related⟩ := mirrors s a r found
    exact ⟨j, same, made a j related⟩
  next => cases taken

theorem Mirrors.andThen {read : Reader α} {f : α → Except Error β} (mirrors : Mirrors read depth R)
    (made : ∀ a b j, R a j → f a = .ok b → S b j) : Mirrors (read.andThen f) depth S := by
  intro s b r taken
  unfold Reader.andThen at taken
  split at taken
  next a r found =>
    have ⟨b, done, same⟩ := map_eq_ok.mp taken
    cases same
    have ⟨j, value, related⟩ := mirrors s a r found
    exact ⟨j, value, made a b j related done⟩
  next => cases taken

theorem Mirrors.once {read found : Reader α} {name : String} {present : Bool}
    (mirrors : Mirrors read depth R) (taken : Reader.once name present read = .ok found) :
    Mirrors found depth R := by
  unfold Reader.once at taken
  split at taken
  next => cases taken
  next =>
    cases taken
    exact mirrors

/-! ## Values without others inside -/

variable {s : Bytes} {b : UInt8} {t : Rest s}

theorem value_of_null (first : first? s = some (0x6E, t)) :
    Reader.value depth s = (takeWord (utf8 "ull") t.1).map fun r => (.null, t.after r) := by
  rw [Reader.value_eq, Reader.valueOf, first]
  rfl

theorem value_of_quote (first : first? s = some (quote, t)) :
    Reader.value depth s = (takeString t.1).map fun (text, r) => (.string text, t.trans r) := by
  rw [Reader.value_eq, Reader.valueOf, first]
  rfl

theorem value_of_bracket (first : first? s = some (openBracket, t)) :
    Reader.value (depth + 1) s = (Reader.elements (Reader.value depth) t.1).map fun (es, r) =>
      (.array es, t.trans r) := by
  rw [Reader.value, Reader.valueOf, first]
  rfl

theorem value_of_brace (first : first? s = some (openBrace, t)) :
    Reader.value (depth + 1) s =
      (Reader.members (Reader.insertMember (Reader.value depth)) [] t.1).map fun (ms, r) =>
        (.object ms, t.trans r) := by
  rw [Reader.value, Reader.valueOf, first]
  rfl

theorem value_of_numberStart (first : first? s = some (b, t))
    (start : Reader.isNumberStart b = true) {n : Number} {r : Rest (b :: t.1)}
    (taken : takeNumber (b :: t.1) = .ok (n, r)) :
    Reader.value depth s = .ok (.number n, t.afterFirst r) := by
  have other := fun c => ne_of_isNumberStart (c := c) start
  rw [Reader.value_eq, Reader.valueOf, first]
  simp only [other 0x6E rfl, other 0x74 rfl, other 0x66 rfl, start, if_true, if_false, taken]

theorem mirrors_value : Mirrors (Reader.value depth) depth fun v j => j = v :=
  fun _ v _ taken => ⟨v, taken, rfl⟩

theorem mirrors_string : Mirrors Reader.string depth fun text j => j = .string text := by
  intro s text r taken
  unfold Reader.string at taken
  split at taken
  next => cases taken
  next b t first =>
    split at taken
    next isQuote =>
      have ⟨(_, u), found, same⟩ := map_eq_ok.mp taken
      cases same
      rw [isQuote] at first
      exact ⟨.string text, by rw [value_of_quote first, found]; rfl, rfl⟩
    next => cases taken

theorem mirrors_textOf {ε : Type} (parse : String → Except ε α) (reason : ε → String) :
    Mirrors (Reader.textOf parse reason) depth fun a j =>
      ∃ text, j = .string text ∧ parse text = .ok a := by
  refine mirrors_string.andThen fun text a j same made => ⟨text, same, ?_⟩
  split at made
  next found =>
    cases made
    exact found
  next => cases made

theorem mirrors_uint64 :
    Mirrors Reader.uint64 depth fun n j => j = .number (.ofUInt64 n) := by
  intro s n r taken
  unfold Reader.uint64 at taken
  split at taken
  next => cases taken
  next b t first =>
    split at taken
    next start =>
      split at taken
      next => cases taken
      next m exact u found =>
        split at taken
        next positive =>
          cases taken
          have whole : m.toNat.toUInt64.toNat = m.toNat := by
            apply UInt64.toNat_ofNat_of_lt
            have := exact.2
            simp only [UInt64.size]
            omega
          refine ⟨_, value_of_numberStart first start found, ?_⟩
          simp only [Number.ofUInt64, whole, Int.toNat_of_nonneg positive]
        next => cases taken
      next => cases taken
    next => cases taken

/-- Nothing is made of null, and of null alone. -/
theorem Mirrors.option {read : Reader α} (mirrors : Mirrors read depth R) :
    Mirrors (Reader.option read) depth fun o j =>
      (o = none ∧ j = .null) ∨ ∃ a, o = some a ∧ j ≠ .null ∧ R a j := by
  intro s o r taken
  unfold Reader.option at taken
  split at taken
  next => cases taken
  next b t first =>
    split at taken
    next isNull =>
      have ⟨u, found, same⟩ := map_eq_ok.mp taken
      cases same
      rw [isNull] at first
      exact ⟨.null, by rw [value_of_null first, found]; rfl, .inl ⟨rfl, rfl⟩⟩
    next other =>
      unfold Reader.map at taken
      split at taken
      next a r found =>
        cases taken
        have ⟨j, value, related⟩ := mirrors s a r found
        refine ⟨j, value, .inr ⟨a, rfl, ?_, related⟩⟩
        intro null
        rw [null, Reader.value_eq] at value
        have ⟨u, begins⟩ := first?_of_null value
        rw [first] at begins
        cases begins
        exact other rfl
      next => cases taken

/-! ## Arrays -/

variable {f : α → Json}

theorem Mirrors.elementsFrom {whole : Bytes} {element : Reader α} {done as : List α}
    {h : s.length ≤ whole.length} {r : Rest whole}
    (mirrors : Mirrors element depth fun a j => j = f a)
    (taken : Reader.elementsFrom element done s h = .ok (as, r)) :
    Reader.elementsFrom (Reader.value depth) (done.map f) s h = .ok (as.map f, r) := by
  -- Both readers leave off in the same place, and so they see the same separator.
  fun_induction Reader.elementsFrom element done s h with
  | case1 | case2 | case4 | case5 | case7 => cases taken
  | case3 done s h a t found u first =>
    cases taken
    obtain ⟨j, value, same⟩ := mirrors _ _ _ found
    rw [Reader.elementsFrom, value, same]
    simp only [first, if_true, List.map_reverse, List.map_cons]
  | case6 done s h a t found u v w next first more other ih =>
    obtain ⟨j, value, same⟩ := mirrors _ _ _ found
    rw [Reader.elementsFrom, value, same]
    simp only [next, more, first, if_neg (by decide : comma ≠ closeBracket), if_true, if_false]
    exact ih taken

theorem Mirrors.elements {element : Reader α} {as : List α} {r : Rest s}
    (mirrors : Mirrors element depth fun a j => j = f a)
    (taken : Reader.elements element s = .ok (as, r)) :
    Reader.elements (Reader.value depth) s = .ok (as.map f, r) := by
  rw [Reader.elements] at taken ⊢
  split at taken
  next => cases taken
  next b t first =>
    by_cases closed : b = closeBracket
    next =>
      rw [if_pos closed] at taken ⊢
      cases taken
      rfl
    next =>
      rw [if_neg closed] at taken ⊢
      exact mirrors.elementsFrom taken

theorem Mirrors.list {read : Nat → Reader α}
    (mirrors : ∀ depth, Mirrors (read depth) depth fun a j => j = f a) (depth : Nat) :
    Mirrors (Reader.list (Reader.within read depth)) depth fun as j => j = .array (as.map f) := by
  intro s as r taken
  unfold Reader.list at taken
  split at taken
  next => cases taken
  next b t first =>
    split at taken
    next bracket =>
      cases depth with
      | zero => cases taken
      | succ depth =>
        have ⟨(es, u), found, same⟩ := map_eq_ok.mp taken
        cases same
        rw [bracket] at first
        have elements := (mirrors depth).elements found
        exact ⟨.array (as.map f), by rw [value_of_bracket first, elements]; rfl, rfl⟩
    next => cases taken

/-! ## Objects -/

variable {inv : σ → List (String × Json) → Prop} {state last : σ} {ms : List (String × Json)}
  {member : σ → String → Except Error (Reader σ)}

theorem mirrors_membersFrom {whole : Bytes} {h : s.length ≤ whole.length} {r : Rest whole}
    (keeps : ∀ state ms name read, inv state ms → member state name = .ok read →
      Mirrors read depth fun next j => inv next (insertEntry name j ms))
    (holds : inv state ms) (taken : Reader.membersFrom member state s h = .ok (last, r)) :
    ∃ found, Reader.membersFrom (Reader.insertMember (Reader.value depth)) ms s h = .ok (found, r) ∧
      inv last found := by
  fun_induction Reader.membersFrom member state s h generalizing ms with
  | case6 state s h name t named value wanted u next v read w separator closing =>
    cases taken
    obtain ⟨j, same, holds⟩ := keeps _ _ _ _ holds wanted _ _ _ read
    refine ⟨insertEntry name j ms, ?_, holds⟩
    rw [Reader.membersFrom, named]
    simp only [Reader.insertMember, separator, if_true, Reader.map, same, closing]
  | case8 state s h name t named value wanted u next v read w x separator more other begins ih =>
    obtain ⟨j, same, holds⟩ := keeps _ _ _ _ holds wanted _ _ _ read
    obtain ⟨found, rest, holds⟩ := ih holds taken
    refine ⟨found, ?_, holds⟩
    rw [Reader.membersFrom, named]
    simp only [Reader.insertMember, separator, if_true, Reader.map, same, more, if_neg other,
      begins]
    exact rest
  | _ => cases taken

theorem mirrors_members {r : Rest s}
    (keeps : ∀ state ms name read, inv state ms → member state name = .ok read →
      Mirrors read depth fun next j => inv next (insertEntry name j ms))
    (holds : inv state ms) (taken : Reader.members member state s = .ok (last, r)) :
    ∃ found, Reader.members (Reader.insertMember (Reader.value depth)) ms s = .ok (found, r) ∧
      inv last found := by
  rw [Reader.members] at taken ⊢
  split at taken
  next => cases taken
  next b t first =>
    by_cases closed : b = closeBrace
    next =>
      rw [if_pos closed] at taken ⊢
      cases taken
      exact ⟨ms, rfl, holds⟩
    next =>
      rw [if_neg closed] at taken ⊢
      split at taken
      next begins =>
        rw [if_pos begins]
        exact mirrors_membersFrom keeps holds taken
      next => cases taken

theorem mirrors_object (inv : σ → List (String × Json) → Prop) {wanted : String}
    {member : Nat → σ → String → Except Error (Reader σ)}
    (keeps : ∀ depth state ms name read, inv state ms → member depth state name = .ok read →
      Mirrors read depth fun next j => inv next (insertEntry name j ms))
    (holds : inv state []) (depth : Nat) :
    Mirrors (Reader.object wanted (Reader.within member depth) state) depth fun last j =>
      ∃ ms, j = .object ms ∧ inv last ms := by
  intro s last r taken
  unfold Reader.object at taken
  split at taken
  next => cases taken
  next b t first =>
    split at taken
    next brace =>
      cases depth with
      | zero => cases taken
      | succ depth =>
        have ⟨(next, u), found, same⟩ := map_eq_ok.mp taken
        cases same
        have ⟨ms, members, holds⟩ := mirrors_members (keeps depth) holds found
        rw [brace] at first
        exact ⟨.object ms, by rw [value_of_brace first, members]; rfl, ms, rfl, holds⟩
    next => cases taken

theorem insertEntry_map (name : String) (a : α) (entries : List (String × α)) :
    insertEntry name (f a) (entries.map fun e => (e.1, f e.2)) =
      (insertEntry name a entries).map fun e => (e.1, f e.2) := by
  induction entries with
  | nil => rfl
  | cons head rest ih =>
    simp only [insertEntry, List.map_cons, alterEntry] at ih ⊢
    split
    next => rfl
    next =>
      split
      next => rfl
      next => rw [ih, List.map_cons]

theorem map_within {ρ τ : Type} (g : ρ → τ) (read : Nat → ρ) (depth : Nat) :
    (Reader.within read depth).map g = Reader.within (fun depth => g (read depth)) depth := by
  cases depth <;> rfl

theorem Mirrors.dict {read : Nat → Reader α}
    (mirrors : ∀ depth, Mirrors (read depth) depth fun a j => j = f a) (depth : Nat) :
    Mirrors (Reader.dict (Reader.within read depth)) depth fun d j =>
      j = .object (d.entries.map fun e => (e.1, f e.2)) := by
  rw [Reader.dict, map_within]
  refine (mirrors_object (fun d ms => ms = d.entries.map fun e => (e.1, f e.2)) ?_ rfl depth).imp ?_
  next =>
    rintro depth d ms name read rfl ⟨⟩
    refine (mirrors depth).map fun a j same => ?_
    rw [same]
    exact insertEntry_map name a d.entries
  next =>
    rintro d j ⟨ms, same, rfl⟩
    exact same

theorem mirrors_memberDict (depth : Nat) :
    Mirrors (Reader.memberDict depth) depth fun m j => j = .ofMembers m := by
  refine (Mirrors.dict (f := id) (fun _ => mirrors_value) depth).imp fun m j same => ?_
  simp only [id, List.map_id'] at same
  exact same

/-- What a member was made into accounts for it, next to what accounts for the members before. -/
theorem Mirrors.field {written : σ → String → Option Json} {d : σ} {put : α → σ}
    {read : Reader α} {found : Reader σ} {name : String} {present : Bool}
    (mirrors : Mirrors read depth fun a j => j = f a)
    (added : ∀ a k, written (put a) k = if k = name then some (f a) else written d k)
    (taken : Reader.once name present (read.map put) = .ok found) :
    Mirrors found depth fun next j =>
      ∀ k, written next k = if k = name then some j else written d k := by
  refine (mirrors.map fun a j same k => ?_).once taken
  rw [same]
  exact added a k

/-- When each member that is read is accounted for, so are all members of the object. -/
theorem mirrors_record (written : σ → String → Option Json) {wanted : String}
    {member : Nat → σ → String → Except Error (Reader σ)} {start : σ} {finish : σ → Except Error α}
    (empty : ∀ name, written start name = none)
    (keeps : ∀ depth d name read, member depth d name = .ok read → Mirrors read depth fun next j =>
      ∀ k, written next k = if k = name then some j else written d k) (depth : Nat) :
    Mirrors ((Reader.object wanted (Reader.within member depth) start).andThen finish) depth
      fun a j => ∃ (m : Members) (d : σ), j = .ofMembers m ∧
        (∀ name, m.find? name = written d name) ∧ finish d = .ok a := by
  refine (mirrors_object (fun d ms => Sorted ms ∧ ∀ name, ms.lookup name = written d name) ?_
    ⟨.nil, fun name => (empty name).symm⟩ depth).andThen ?_
  next =>
    rintro depth d ms name read ⟨sorted, all⟩ found
    refine (keeps depth d name read found).imp fun next j added => ?_
    refine ⟨sorted_alterEntry name _ sorted, fun k => ?_⟩
    rw [insertEntry, lookup_alterEntry name k _ sorted, all k, added k]
  next =>
    rintro d a j ⟨ms, same, sorted, all⟩ made
    exact ⟨⟨ms, sorted⟩, d, same, all, made⟩

/-- A whole text that is taken for what is wanted is the text of a value. -/
theorem Mirrors.parse {read : Reader α} {s : Bytes} {a : α} (mirrors : Mirrors read maxDepth R)
    (parsed : Reader.parse read s = .ok a) : ∃ j, Json.parse s = .ok j ∧ R a j := by
  unfold Reader.parse at parsed
  split at parsed
  next => cases parsed
  next b r taken =>
    split at parsed
    next ended =>
      cases parsed
      obtain ⟨j, value, related⟩ := mirrors s a r taken
      exact ⟨j, by rw [Json.parse, Reader.parse, value]; simp only [ended, if_true], related⟩
    next => cases parsed

end Ucan.Json
