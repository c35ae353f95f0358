import Ucan.Proofs.Json.Reads
import Ucan.Proofs.Json.Yields

/-!
Of the text of a value a reader takes all, whatever it makes of it, or it fails. So the members of
an object that was printed are read each on its own.
-/

set_option autoImplicit false

namespace Ucan.Json

open Ascii

variable {α β σ : Type}

/-- Where the reader takes what begins with the text of a value, it leaves what comes after. -/
def TakesAll (read : Reader α) : Prop :=
  ∀ j rest s a r, Ends rest → s = print j ++ rest → read s = .ok (a, r) → r.1 = rest

/-! ## Numbers -/

variable {digits s rest : Bytes}

theorem rest_takeSomeDigits {ds : Bytes} {r : Rest s} (all : Digits digits)
    (ends : ∀ b ∈ rest.head?, isDigit b = false) (text : s = digits ++ rest)
    (taken : takeSomeDigits s = .ok (ds, r)) : r.1 = rest := by
  subst text
  cases digits with
  | nil =>
    -- The reader wants a digit and finds none.
    cases rest with
    | nil => cases taken
    | cons b t =>
      have stop := ends b rfl
      simp [takeSomeDigits, stop] at taken
  | cons d digits =>
    obtain ⟨digit, others⟩ := List.forall_mem_cons.mp all
    obtain ⟨h, same⟩ := takeDigits_append others ends
    simp only [List.cons_append, takeSomeDigits, digit, if_true, same] at taken
    cases taken
    rfl

theorem rest_takeWhole {ds : Bytes} {r : Rest s} (all : Digits digits)
    (ends : ∀ b ∈ rest.head?, isDigit b = false) (text : s = digits ++ rest)
    (taken : takeWhole s = .ok (ds, r)) : r.1 = rest := by
  simp only [takeWhole, bind_eq_ok] at taken
  obtain ⟨⟨found, t⟩, some, taken⟩ := taken
  split at taken
  · cases taken
  · cases taken
    exact rest_takeSomeDigits all ends text some

theorem rest_takeFraction {fraction : Bytes} {found : Option Bytes} {r : Remainder s}
    (placed : IsFraction fraction) (ends : ∀ b ∈ rest.head?, isDigit b = false)
    (other : dot ∉ rest.head?) (text : s = fraction ++ rest)
    (taken : takeFraction s = .ok (found, r)) : r.1 = rest := by
  rcases placed with rfl | ⟨digits, all, rfl⟩ <;> subst text
  · obtain ⟨_, none⟩ := takeFraction_of_ne other
    cases none.symm.trans taken
    rfl
  · simp only [List.cons_append, takeFraction] at taken
    obtain ⟨⟨ds, u⟩, some, made⟩ := bind_eq_ok.mp taken
    cases made
    exact rest_takeSomeDigits all ends rfl some

theorem rest_takeExponent {exponent : Bytes} {found : Option (Bool × Bytes)} {r : Remainder s}
    (scaled : IsExponent exponent) (ends : Ends rest) (text : s = exponent ++ rest)
    (taken : takeExponent s = .ok (found, r)) : r.1 = rest := by
  rcases scaled with rfl | ⟨sign, digits, signed, all, rfl⟩ <;> subst text
  · obtain ⟨_, none⟩ := takeExponent_of_ends ends
    cases none.symm.trans taken
    rfl
  · simp only [List.cons_append, takeExponent, true_or, if_true, bind_eq_ok] at taken
    obtain ⟨⟨ds, u⟩, some, made⟩ := taken
    cases made
    rcases signed with rfl | rfl <;>
      exact rest_takeSomeDigits all (not_isDigit_of_ends ends) rfl some

/-- What comes after the digits of a number does not go on with them. -/
theorem head_exponent {exponent : Bytes} (scaled : IsExponent exponent) (ends : Ends rest) :
    (∀ b ∈ (exponent ++ rest).head?, isDigit b = false) ∧ dot ∉ (exponent ++ rest).head? := by
  rcases scaled with rfl | ⟨sign, digits, -, -, rfl⟩
  · exact ⟨not_isDigit_of_ends ends, dot_not_mem_of_ends ends⟩
  · constructor
    · rintro _ ⟨⟩
      rfl
    · rintro ⟨⟩

theorem head_fraction {fraction : Bytes} (placed : IsFraction fraction)
    (ends : ∀ b ∈ rest.head?, isDigit b = false) :
    ∀ b ∈ (fraction ++ rest).head?, isDigit b = false := by
  rcases placed with rfl | ⟨digits, -, rfl⟩
  · exact ends
  · rintro _ ⟨⟩
    rfl

theorem rest_takeUnsigned {magnitude : Bytes} {negative : Bool} {n : Numeral} {r : Rest s}
    (number : Unsigned magnitude) (ends : Ends rest) (text : s = magnitude ++ rest)
    (taken : takeUnsigned negative s = .ok (n, r)) : r.1 = rest := by
  obtain ⟨digits, placed, scaled⟩ := number
  rw [List.append_assoc, List.append_assoc] at text
  simp only [takeUnsigned, bind_eq_ok] at taken
  obtain ⟨⟨_, afterWhole⟩, whole, ⟨_, afterFraction⟩, fraction, ⟨_, afterExponent⟩, exponent, made⟩ :=
    taken
  cases made
  -- A part is left where the next one cannot go on with it, so the last part is looked at first.
  obtain ⟨noDigit, noDot⟩ := head_exponent scaled ends
  have first := rest_takeWhole digits (head_fraction placed noDigit) text whole
  have second := rest_takeFraction placed noDigit noDot first fraction
  exact rest_takeExponent scaled ends second exponent

theorem takeNumeral_of_ne (other : minus ∉ s.head?) : takeNumeral s = takeUnsigned false s := by
  unfold takeNumeral
  split
  · exact absurd rfl other
  · rfl

theorem rest_takeNumeral {written : Bytes} {n : Numeral} {r : Rest s} (signed : Signed written)
    (ends : Ends rest) (text : s = written ++ rest) (taken : takeNumeral s = .ok (n, r)) :
    r.1 = rest := by
  rcases signed with number | ⟨magnitude, number, rfl⟩
  · obtain ⟨b, t, same, start⟩ := number.exists_cons
    have other : minus ∉ s.head? := by
      rw [text, same]
      rintro ⟨⟩
      cases start
    rw [takeNumeral_of_ne other] at taken
    exact rest_takeUnsigned number ends text taken
  · subst text
    obtain ⟨⟨n, r⟩, some, made⟩ := map_eq_ok.mp taken
    cases made
    have last : r.1 = rest := rest_takeUnsigned number ends rfl some
    exact last

theorem rest_takeNumber {n m : Number} {r : Rest s} (ends : Ends rest)
    (text : s = printNumber n ++ rest) (taken : takeNumber s = .ok (m, r)) : r.1 = rest := by
  simp only [takeNumber, bind_eq_ok] at taken
  obtain ⟨⟨numeral, t⟩, written, _, -, made⟩ := taken
  cases made
  exact rest_takeNumeral (signed_number n) ends text written

/-! ## Turning what was read into something else -/

variable {j : Json} {b : UInt8}

theorem TakesAll.map {read : Reader α} (all : TakesAll read) (f : α → β) :
    TakesAll (read.map f) := by
  intro j rest s b r ends text taken
  unfold Reader.map at taken
  split at taken
  next found =>
    cases taken
    exact all j rest s _ _ ends text found
  · cases taken

theorem TakesAll.andThen {read : Reader α} (all : TakesAll read) (f : α → Except Error β) :
    TakesAll (read.andThen f) := by
  intro j rest s b r ends text taken
  unfold Reader.andThen at taken
  split at taken
  next found =>
    obtain ⟨_, -, same⟩ := map_eq_ok.mp taken
    cases same
    exact all j rest s _ _ ends text found
  · cases taken

theorem TakesAll.once {name : String} {present : Bool} {read found : Reader α}
    (all : TakesAll read) (taken : Reader.once name present read = .ok found) :
    TakesAll found := by
  unfold Reader.once at taken
  split at taken
  · cases taken
  · cases taken
    exact all

/-! ## Values without others inside -/

theorem rest_takeWord {word : Bytes} {r : Remainder s} (text : s = word ++ rest)
    (taken : takeWord word s = .ok r) : r.1 = rest := by
  subst text
  obtain ⟨_, found⟩ := takeWord_append word rest
  cases found.symm.trans taken
  rfl

theorem rest_word {word : Bytes} {a made : α} {t r : Rest s} (text : t.1 = word ++ rest)
    (taken : ((takeWord word t.1).map fun u => (a, t.after u)) = .ok (made, r)) : r.1 = rest := by
  obtain ⟨u, found, same⟩ := map_eq_ok.mp taken
  cases same
  exact rest_takeWord text found

theorem rest_takeString {text name : String} {r : Rest s}
    (written : s = (utf8 text).flatMap escapeByte ++ quote :: rest)
    (taken : takeString s = .ok (name, r)) : name = text ∧ r.1 = rest := by
  subst written
  obtain ⟨_, found⟩ := takeString_print text rest
  cases found.symm.trans taken
  exact ⟨rfl, rfl⟩

theorem rest_string {value name : String} {r : Rest s} (same : b :: s = (string value).print ++ rest)
    (taken : takeString s = .ok (name, r)) : r.1 = rest := by
  rw [print, printString_append] at same
  exact (rest_takeString (List.cons.inj same).2 taken).2

theorem takesAll_string : TakesAll Reader.string := by
  intro j rest s a r ends text taken
  unfold Reader.string at taken
  split at taken
  · cases taken
  next b t first =>
    obtain ⟨begins, same⟩ := begins_first? text first
    split at taken
    next isQuote =>
      subst isQuote
      obtain ⟨value, rfl⟩ := begins.eq_string
      obtain ⟨⟨_, u⟩, some, made⟩ := map_eq_ok.mp taken
      cases made
      exact rest_string (s := t.1) same some
    · cases taken

theorem takesAll_textOf {ε : Type} (parse : String → Except ε α) (reason : ε → String) :
    TakesAll (Reader.textOf parse reason) :=
  takesAll_string.andThen _

theorem takesAll_uint64 : TakesAll Reader.uint64 := by
  intro j rest s a r ends text taken
  unfold Reader.uint64 at taken
  split at taken
  · cases taken
  next b t first =>
    obtain ⟨begins, same⟩ := begins_first? text first
    split at taken
    next start =>
      split at taken
      · cases taken
      next found =>
        split at taken
        · cases taken
          obtain ⟨n, rfl⟩ := begins.eq_number start
          exact rest_takeNumber (s := b :: t.1) ends same found
        · cases taken
      · cases taken
    · cases taken

theorem TakesAll.option {read : Reader α} (all : TakesAll read) :
    TakesAll (Reader.option read) := by
  intro j rest s o r ends text taken
  unfold Reader.option at taken
  split at taken
  · cases taken
  next b t first =>
    obtain ⟨begins, same⟩ := begins_first? text first
    split at taken
    next isNull =>
      subst isNull
      cases begins.eq_null
      exact rest_word (List.cons.inj same).2 taken
    · exact all.map some j rest s o r ends text taken

/-! ## Arrays -/

theorem ends_printMore (more : List Json) (rest : Bytes) :
    Ends (printMore more ++ closeBracket :: rest) := by
  cases more with
  | nil => exact ends_closeBracket rest
  | cons j more => exact ends_comma _

theorem eq_of_first? {d : UInt8} {t : Bytes} {u : Rest s} (visible : isSpace d = false)
    (text : s = d :: t) (first : first? s = some (b, u)) : b = d ∧ u.1 = t := by
  subst text
  cases (first?_cons visible t).symm.trans first
  exact ⟨rfl, rfl⟩

theorem TakesAll.elementsFrom {whole : Bytes} {element : Reader α} (all : TakesAll element)
    {more : List Json} {done as : List α} {h : s.length ≤ whole.length} {r : Rest whole}
    (text : s = j.print ++ (printMore more ++ closeBracket :: rest))
    (taken : Reader.elementsFrom element done s h = .ok (as, r)) : r.1 = rest := by
  -- The reader goes on at a comma and ends at a bracket; of these the text has the one it should.
  fun_induction Reader.elementsFrom element done s h generalizing j more with
  | case1 | case2 | case4 | case5 | case7 => cases taken
  | case3 done s h a t found u first =>
    cases taken
    have after := all j _ s a t (ends_printMore more rest) text found
    cases more with
    | nil => exact (eq_of_first? rfl after first).2
    | cons k more => cases (eq_of_first? rfl after first).1
  | case6 done s h a t found u _ _ _ _ first _ ih =>
    have after := all j _ s a t (ends_printMore more rest) text found
    cases more with
    | nil => cases (eq_of_first? rfl after first).1
    | cons k more =>
      have next := (eq_of_first? rfl after first).2
      exact ih (next.trans (List.append_assoc _ _ _)) taken

theorem TakesAll.elements {element : Reader α} (all : TakesAll element) {elements : List Json}
    {as : List α} {r : Rest s} (same : b :: s = (array elements).print ++ rest)
    (taken : Reader.elements element s = .ok (as, r)) : r.1 = rest := by
  rw [print_array_append] at same
  have text := (List.cons.inj same).2
  unfold Reader.elements at taken
  split at taken
  · cases taken
  next b t first =>
    cases elements with
    | nil =>
      obtain ⟨rfl, last⟩ := eq_of_first? rfl text first
      rw [if_pos rfl] at taken
      cases taken
      exact last
    | cons j more =>
      rw [printElements_cons, List.append_assoc] at text
      obtain ⟨begins, -⟩ := begins_first? text first
      split at taken
      next closes =>
        -- No value begins with the bracket that ends the array.
        subst closes
        cases begins with
        | magnitude n start => cases start
      · exact all.elementsFrom text taken

theorem takesAll_list {element : Option (Reader α)} (all : ∀ read ∈ element, TakesAll read) :
    TakesAll (Reader.list element) := by
  intro j rest s as r ends text taken
  unfold Reader.list at taken
  split at taken
  · cases taken
  next b t first =>
    obtain ⟨begins, same⟩ := begins_first? text first
    split at taken
    next opens =>
      subst opens
      split at taken
      · cases taken
      next read =>
        obtain ⟨elements, rfl⟩ := begins.eq_array
        obtain ⟨⟨_, u⟩, some, made⟩ := map_eq_ok.mp taken
        cases made
        exact (all read rfl).elements (s := t.1) same some
    · cases taken

/-! ## Objects -/

/-- One after another, the members were read each from its own text, and so brought what the reader
had made to its last. -/
inductive Passes (member : σ → String → Except Error (Reader σ)) :
    σ → List (String × Json) → σ → Prop where
  | nil (state : σ) : Passes member state [] state
  | cons {state next last : σ} {name : String} {j : Json} {members : List (String × Json)}
      {read : Reader σ} {rest s : Bytes} {r : Rest s} (found : member state name = .ok read)
      (ends : Ends rest) (text : s = j.print ++ rest) (taken : read s = .ok (next, r))
      (later : Passes member next members last) : Passes member state ((name, j) :: members) last

variable {member : σ → String → Except Error (Reader σ)}

theorem ends_printOthers (members : List (String × Json)) (rest : Bytes) :
    Ends (printOthers members ++ closeBrace :: rest) := by
  cases members with
  | nil => exact ends_closeBrace rest
  | cons m members => exact ends_comma _

theorem passes_membersFrom {whole : Bytes} {state last : σ} {name : String}
    {members : List (String × Json)} {h : s.length ≤ whole.length} {r : Rest whole}
    (all : ∀ state name read, member state name = .ok read → TakesAll read)
    (text : s = memberText name j (printOthers members ++ closeBrace :: rest))
    (taken : Reader.membersFrom member state s h = .ok (last, r)) :
    r.1 = rest ∧ Passes member state ((name, j) :: members) last := by
  -- Only two cases bring a result: a brace after the member, or a comma and the next name.
  fun_induction Reader.membersFrom member state s h generalizing name j members with
  | case6 state s h found r named value known t next u read v separated first =>
    cases taken
    obtain ⟨rfl, afterName⟩ := rest_takeString text named
    obtain ⟨-, start⟩ := eq_of_first? rfl afterName separated
    have ends := ends_printOthers members rest
    have after := all _ _ _ known j _ t.1 _ u ends start read
    cases members with
    | nil =>
      exact ⟨(eq_of_first? rfl after first).2, .cons known ends start read (.nil _)⟩
    | cons m members => cases (eq_of_first? rfl after first).1
  | case8 state s h found r named value known t next u read v w separated first _ opening ih =>
    obtain ⟨rfl, afterName⟩ := rest_takeString text named
    obtain ⟨-, start⟩ := eq_of_first? rfl afterName separated
    have ends := ends_printOthers members rest
    have after := all _ _ _ known j _ t.1 _ u ends start read
    cases members with
    | nil => cases (eq_of_first? rfl after first).1
    | cons m members =>
      rw [printOthers_cons] at after
      have opened := (eq_of_first? rfl after first).2
      obtain ⟨last, later⟩ := ih (eq_of_first? rfl opened opening).2 taken
      exact ⟨last, .cons known ends start read later⟩
  | _ => cases taken

theorem passes_members {state last : σ} {members : List (String × Json)} {r : Rest s}
    (all : ∀ state name read, member state name = .ok read → TakesAll read)
    (same : b :: s = (object members).print ++ rest)
    (taken : Reader.members member state s = .ok (last, r)) :
    r.1 = rest ∧ Passes member state members last := by
  rw [print_object_append] at same
  have text := (List.cons.inj same).2
  unfold Reader.members at taken
  split at taken
  · cases taken
  next b t first =>
    cases members with
    | nil =>
      obtain ⟨rfl, after⟩ := eq_of_first? rfl text first
      rw [if_pos rfl] at taken
      cases taken
      exact ⟨after, .nil _⟩
    | cons m members =>
      rw [printMembers_cons_append] at text
      obtain ⟨rfl, opened⟩ := eq_of_first? rfl text first
      rw [if_neg (by decide), if_pos rfl] at taken
      exact passes_membersFrom all opened taken

theorem passes_object {wanted : String}
    {member : Option (σ → String → Except Error (Reader σ))} {start last : σ} {r : Rest s}
    (all : ∀ m ∈ member, ∀ state name read, m state name = .ok read → TakesAll read)
    (text : s = j.print ++ rest) (taken : Reader.object wanted member start s = .ok (last, r)) :
    r.1 = rest ∧ ∃ m ∈ member, ∃ members, j = .object members ∧ Passes m start members last := by
  unfold Reader.object at taken
  split at taken
  · cases taken
  next b t first =>
    obtain ⟨begins, same⟩ := begins_first? text first
    split at taken
    next opens =>
      subst opens
      split at taken
      · cases taken
      next m =>
        obtain ⟨members, rfl⟩ := begins.eq_object
        obtain ⟨⟨_, u⟩, some, made⟩ := map_eq_ok.mp taken
        cases made
        obtain ⟨after, passes⟩ := passes_members (all m rfl) same some
        exact ⟨after, m, rfl, members, rfl, passes⟩
    · cases taken

theorem takesAll_object {wanted : String}
    {member : Option (σ → String → Except Error (Reader σ))} {start : σ}
    (all : ∀ m ∈ member, ∀ state name read, m state name = .ok read → TakesAll read) :
    TakesAll (Reader.object wanted member start) :=
  fun _ _ _ _ _ _ text taken => (passes_object all text taken).1

theorem takesAll_dict {value : Option (Reader α)} (all : ∀ read ∈ value, TakesAll read) :
    TakesAll (Reader.dict value) := by
  apply takesAll_object
  intro m inside d name read found
  obtain ⟨read, member, rfl⟩ := Option.map_eq_some_iff.mp inside
  cases found
  exact (all read member).map _

/-! ## Any value -/

theorem takesAll_valueOf {inner : Option (Reader Json)} (all : ∀ read ∈ inner, TakesAll read) :
    TakesAll (Reader.valueOf inner) := by
  intro j rest s k r ends text taken
  unfold Reader.valueOf at taken
  split at taken
  · cases taken
  next b t first =>
    -- The reader chooses by the first byte, and this tells of what kind the value is.
    obtain ⟨begins, same⟩ := begins_first? text first
    split at taken
    next isNull =>
      subst isNull
      cases begins.eq_null
      exact rest_word (List.cons.inj same).2 taken
    split at taken
    next isTrue =>
      subst isTrue
      cases begins.eq_true
      exact rest_word (List.cons.inj same).2 taken
    split at taken
    next isFalse =>
      subst isFalse
      cases begins.eq_false
      exact rest_word (List.cons.inj same).2 taken
    split at taken
    next start =>
      obtain ⟨n, rfl⟩ := begins.eq_number start
      split at taken
      · cases taken
      next found =>
        cases taken
        exact rest_takeNumber (s := b :: t.1) ends same found
    split at taken
    next isQuote =>
      subst isQuote
      obtain ⟨value, rfl⟩ := begins.eq_string
      obtain ⟨⟨_, u⟩, some, made⟩ := map_eq_ok.mp taken
      cases made
      exact rest_string (s := t.1) same some
    split at taken
    next opens =>
      subst opens
      obtain ⟨elements, rfl⟩ := begins.eq_array
      split at taken
      · cases taken
      next read =>
        obtain ⟨⟨_, u⟩, some, made⟩ := map_eq_ok.mp taken
        cases made
        exact (all read rfl).elements (s := t.1) same some
    split at taken
    next opens =>
      subst opens
      obtain ⟨members, rfl⟩ := begins.eq_object
      split at taken
      · cases taken
      next read =>
        obtain ⟨⟨_, u⟩, some, made⟩ := map_eq_ok.mp taken
        cases made
        refine (passes_members ?_ same some).1
        rintro state name _ ⟨⟩
        exact (all read rfl).map _
    · cases taken

theorem takesAll_value (depth : Nat) : TakesAll (Reader.value depth) := by
  induction depth with
  | zero => exact takesAll_valueOf nofun
  | succ depth ih =>
    apply takesAll_valueOf
    rintro read ⟨⟩
    exact ih

theorem takesAll_within {read : Nat → Reader α} (all : ∀ depth, TakesAll (read depth))
    (depth : Nat) : ∀ inner ∈ Reader.within read depth, TakesAll inner := by
  cases depth with
  | zero => exact nofun
  | succ depth =>
    rintro inner ⟨⟩
    exact all depth

theorem takesAll_memberDict (depth : Nat) : TakesAll (Reader.memberDict depth) :=
  takesAll_dict (takesAll_within takesAll_value depth)

/-! ## Single members -/

/-- Whatever the reader makes of the text of the value has the property. -/
def YieldsOf (read : Reader α) (j : Json) (p : α → Prop) : Prop :=
  ∀ rest s a r, Ends rest → s = print j ++ rest → read s = .ok (a, r) → p a

theorem Reads.yieldsOf {read : Reader α} {a : α} (reads : Reads read j a) :
    YieldsOf read j (· = a) := by
  intro rest s b r ends text taken
  subst text
  obtain ⟨_, same⟩ := reads rest ends
  cases same.symm.trans taken
  rfl

section

variable {read : Reader α} {p : α → Prop} {q : β → Prop}

theorem YieldsOf.map {f : α → β} (yields : YieldsOf read j p) (made : ∀ a, p a → q (f a)) :
    YieldsOf (read.map f) j q := by
  intro rest s b r ends text taken
  unfold Reader.map at taken
  split at taken
  next found =>
    cases taken
    exact made _ (yields rest s _ _ ends text found)
  · cases taken

theorem YieldsOf.andThen {f : α → Except Error β} (yields : YieldsOf read j p)
    (made : ∀ a b, p a → f a = .ok b → q b) : YieldsOf (read.andThen f) j q := by
  intro rest s b r ends text taken
  unfold Reader.andThen at taken
  split at taken
  next found =>
    obtain ⟨_, done, same⟩ := map_eq_ok.mp taken
    cases same
    exact made _ _ (yields rest s _ _ ends text found) done
  · cases taken

theorem YieldsOf.once {name : String} {present : Bool} {found : Reader α}
    (yields : YieldsOf read j p) (taken : Reader.once name present read = .ok found) :
    YieldsOf found j p := by
  unfold Reader.once at taken
  split at taken
  · cases taken
  · cases taken
    exact yields

/-! A field that may be met once is set to what its member is read as. -/

variable {name : String} {present : Bool} {set : α → σ} {found : Reader σ} {kept : σ → Prop}

theorem takesAll_once (all : TakesAll read)
    (taken : Reader.once name present (read.map set) = .ok found) (holds : ∀ a, kept (set a)) :
    TakesAll found ∧ Yields found kept :=
  ⟨(all.map set).once taken, ((yields_true read).map fun a _ => holds a).once taken⟩

theorem yieldsOf_once (taken : Reader.once name present (read.map set) = .ok found)
    (yields : YieldsOf read j p) (holds : ∀ a, p a → kept (set a)) : YieldsOf found j kept :=
  (yields.map holds).once taken

end

namespace Passes

variable {τ : Type} {get : σ → τ} {name : String} {members : List (String × Json)}
  {start last : σ}

theorem get_eq (passes : Passes member start members last)
    (keeps : ∀ m ∈ members, ∀ state read, member state m.1 = .ok read →
      Yields read fun next => get next = get state) : get last = get start := by
  induction passes with
  | nil => rfl
  | cons found _ _ taken _ ih =>
    rw [List.forall_mem_cons] at keeps
    exact (ih keeps.2).trans (keeps.1 _ _ found _ _ _ taken)

/-- What only the member of one name brings about is what was made of that member. -/
theorem get_of_lookup (passes : Passes member start members last)
    (distinct : (members.map (·.1)).Nodup)
    (keeps : ∀ other, other ≠ name → ∀ state read, member state other = .ok read →
      Yields read fun next => get next = get state) {p : τ → Prop}
    (found : members.lookup name = some j)
    (own : ∀ state read, member state name = .ok read → YieldsOf read j fun next => p (get next)) :
    p (get last) := by
  induction passes with
  | nil => cases found
  | @cons state next last other k members read rest s r known ends text taken later ih =>
    rw [List.map_cons, List.nodup_cons] at distinct
    rw [lookup_cons_eq] at found
    split at found
    next same =>
      cases found
      subst same
      -- The names differ, so no later member changes what this one brought about.
      have kept : get last = get next := later.get_eq fun m inside =>
        keeps m.1 fun same => distinct.1 (List.mem_map.mpr ⟨m, inside, same⟩)
      rw [kept]
      exact own _ _ known _ _ _ _ ends text taken
    · exact ih distinct.2 found

theorem get_of_absent (passes : Passes member start members last)
    (keeps : ∀ other, other ≠ name → ∀ state read, member state other = .ok read →
      Yields read fun next => get next = get state)
    (absent : members.lookup name = none) : get last = get start := by
  apply passes.get_eq
  intro m inside
  apply keeps
  rintro rfl
  exact lookup_eq_none_iff.mp absent (List.mem_map.mpr ⟨m, inside, rfl⟩)

end Passes

theorem passes_of_parse {wanted : String}
    {member : Option (σ → String → Except Error (Reader σ))} {start : σ}
    {finish : σ → Except Error β} {made : β}
    (all : ∀ m ∈ member, ∀ state name read, m state name = .ok read → TakesAll read)
    (parsed : Reader.parse ((Reader.object wanted member start).andThen finish) j.print =
      .ok made) :
    ∃ m ∈ member, ∃ members last, j = .object members ∧ Passes m start members last ∧
      finish last = .ok made := by
  unfold Reader.parse at parsed
  split at parsed
  · cases parsed
  next taken =>
    split at parsed
    · cases parsed
      unfold Reader.andThen at taken
      split at taken
      next found =>
        obtain ⟨_, done, same⟩ := map_eq_ok.mp taken
        cases same
        obtain ⟨-, m, inside, members, rfl, passes⟩ :=
          passes_object all (List.append_nil _).symm found
        exact ⟨m, inside, members, _, rfl, passes, done⟩
      · cases taken
    · cases parsed

end Ucan.Json
