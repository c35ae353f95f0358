import Ucan.Proofs.Json.Begins
import Ucan.Proofs.Json.Shape

/-!
What is printed is read back: each reader takes the text of a value up to its end, whatever comes
after, and makes of it what was printed.
-/

set_option autoImplicit false

namespace Ucan.Json

open Ascii

variable {α β σ : Type}

/-- The reader makes `a` of the front of the text and leaves the rest. -/
def Takes (read : Reader α) (s : Bytes) (a : α) (rest : Bytes) : Prop :=
  ∃ h, read s = .ok (a, ⟨rest, h⟩)

/-- The reader makes `a` of the value, wherever its text stands. -/
def Reads (read : Reader α) (j : Json) (a : α) : Prop :=
  ∀ rest, Ends rest → Takes read (j.print ++ rest) a rest

/-! ## How the text of a value begins -/

theorem startsNumber {n : Int} :
    ∃ b t, printInteger n = b :: t ∧ Reader.isNumberStart b = true := by
  by_cases negative : n < 0
  · exact ⟨minus, decimal n.natAbs, if_pos negative, rfl⟩
  · cases written : decimal n.natAbs with
    | nil => exact absurd written (decimal_ne_nil _)
    | cons d digits =>
      have digit : isDigit d = true := isDigit_of_mem_decimal (written ▸ List.mem_cons_self)
      refine ⟨d, digits, (if_neg negative).trans written, ?_⟩
      rw [Reader.isNumberStart, digit, Bool.or_true]

theorem ne_of_isNumberStart {b c : UInt8} (start : Reader.isNumberStart b = true)
    (other : Reader.isNumberStart c = false) : b ≠ c := by
  rintro rfl
  rw [start] at other
  cases other

theorem not_isSpace_of_isNumberStart {b : UInt8} (start : Reader.isNumberStart b = true) :
    isSpace b = false := by
  have other := fun c => ne_of_isNumberStart (c := c) start
  simp [isSpace, other space rfl, other tab rfl, other newline rfl, other carriageReturn rfl]

/-- No value but null is taken for null, and none for the end of an array. -/
theorem first?_of_print {j : Json} {s rest : Bytes} (text : s = j.print ++ rest) :
    ∃ b t, first? s = some (b, t) ∧ b ≠ closeBracket ∧ (b = 0x6E → j = .null) := by
  obtain ⟨b, t, printed, begins⟩ := exists_begins j
  rw [printed, List.cons_append] at text
  subst text
  exact ⟨b, _, first?_cons begins.not_isSpace _, begins.ne_closeBracket,
    fun same => (same ▸ begins).eq_null⟩

/-! ## Turning what was read into something else -/

theorem Reads.map {read : Reader α} {j : Json} {a : α} (reads : Reads read j a) (f : α → β) :
    Reads (read.map f) j (f a) := by
  intro rest ends
  obtain ⟨h, taken⟩ := reads rest ends
  exact ⟨h, by simp only [Reader.map, taken]⟩

theorem Reads.andThen {read : Reader α} {j : Json} {a : α} {b : β} {f : α → Except Error β}
    (reads : Reads read j a) (made : f a = .ok b) : Reads (read.andThen f) j b := by
  intro rest ends
  obtain ⟨h, taken⟩ := reads rest ends
  exact ⟨h, by simp only [Reader.andThen, taken, made, Except.map]⟩

/-! ## Values without others inside -/

theorem printString_append (s : String) (rest : Bytes) :
    printString s ++ rest = quote :: ((utf8 s).flatMap escapeByte ++ quote :: rest) := by
  simp [printString]

theorem reads_string (s : String) : Reads Reader.string (.string s) s := by
  intro rest _
  obtain ⟨h, taken⟩ := takeString_print s rest
  have visible : isSpace quote = false := rfl
  rw [print, printString_append]
  refine ⟨Nat.lt_succ_of_lt h, ?_⟩
  simp only [Reader.string, first?_cons visible, if_true, taken]
  rfl

theorem reads_textOf {ε : Type} {parse : String → Except ε α} {reason : ε → String} {s : String}
    {a : α} (parsed : parse s = .ok a) : Reads (Reader.textOf parse reason) (.string s) a :=
  (reads_string s).andThen (by rw [parsed])

theorem takes_number {n : Int} (exact : IsExact n) {rest : Bytes} (ends : Ends rest) :
    ∃ b t, printInteger n ++ rest = b :: t ∧ Reader.isNumberStart b = true ∧
      ∃ h, takeNumber (b :: t) = .ok (.integer n exact, ⟨rest, h⟩) := by
  obtain ⟨b, t, printed, start⟩ := startsNumber (n := n)
  have taken := takeNumber_printInteger exact ends
  rw [printed, List.cons_append] at taken
  exact ⟨b, t ++ rest, by rw [printed, List.cons_append], start, taken⟩

theorem reads_uint64 (n : UInt64) : Reads Reader.uint64 (.number (.ofUInt64 n)) n := by
  intro rest ends
  have exact : IsExact n.toNat := ⟨by omega, by have := n.toNat_lt; omega⟩
  change Takes _ (printInteger n.toNat ++ rest) _ _
  obtain ⟨b, t, written, start, h, taken⟩ := takes_number exact ends
  have visible := not_isSpace_of_isNumberStart start
  rw [written]
  refine ⟨h, ?_⟩
  simp only [Reader.uint64, first?_cons visible, start, if_true, taken]
  simp [Rest.afterFirst]

/-! ## Values that may be missing -/

theorem reads_word {read : Reader α} (b : UInt8) (word : Bytes) {j : Json} {a : α}
    (printed : j.print = b :: word)
    (taken : ∀ s, read (b :: s) =
      (takeWord word s).map fun r => (a, Rest.after ⟨s, Nat.lt_succ_self _⟩ r)) :
    Reads read j a := by
  intro rest _
  obtain ⟨h, word⟩ := takeWord_append word rest
  rw [printed, List.cons_append]
  exact ⟨Nat.lt_succ_of_le h, by rw [taken, word]; rfl⟩

theorem reads_option_null (read : Reader α) : Reads (Reader.option read) .null none :=
  reads_word 0x6E (utf8 "ull") (by decide) fun _ => rfl

theorem reads_option_some {read : Reader α} {j : Json} {a : α} (present : j ≠ .null)
    (reads : Reads read j a) : Reads (Reader.option read) j (some a) := by
  intro rest ends
  obtain ⟨b, t, first, -, onlyNull⟩ := first?_of_print (Eq.refl (j.print ++ rest))
  obtain ⟨h, taken⟩ := reads.map some rest ends
  have noWord : b ≠ 0x6E := fun same => present (onlyNull same)
  exact ⟨h, by simp only [Reader.option, first, noWord, if_false, taken]⟩

/-! ## Arrays -/

def printMore : List Json → Bytes
  | [] => []
  | a :: as => comma :: (print a ++ printMore as)

theorem printElements_cons (a : Json) (as : List Json) :
    printElements (a :: as) = a.print ++ printMore as := by
  induction as generalizing a with
  | nil => simp [printElements, printMore]
  | cons b as ih => rw [printElements, ih, printMore]; nofun

variable {element : Reader α} {toJson : α → Json}

theorem takes_elementsFrom {whole : Bytes} {a : α} {as : List α}
    (each : ∀ e ∈ a :: as, Reads element (toJson e) e) (done : List α) (rest : Bytes)
    (h : (printElements ((a :: as).map toJson) ++ closeBracket :: rest).length ≤ whole.length) :
    ∃ h', Reader.elementsFrom element done
        (printElements ((a :: as).map toJson) ++ closeBracket :: rest) h =
      .ok (done.reverse ++ a :: as, (⟨rest, h'⟩ : Rest whole)) := by
  have reads := each a List.mem_cons_self
  induction as generalizing a done with
  | nil =>
    obtain ⟨_, taken⟩ := reads (closeBracket :: rest) (ends_closeBracket rest)
    have visible : isSpace closeBracket = false := rfl
    simp only [List.map_cons, List.map_nil, printElements_cons, printMore, List.append_nil] at h ⊢
    refine ⟨by simp at h; omega, ?_⟩
    rw [Reader.elementsFrom]
    simp only [taken, first?_cons visible, if_true, List.reverse_cons]
  | cons b as ih =>
    rw [List.forall_mem_cons] at each
    let later := printElements ((b :: as).map toJson) ++ closeBracket :: rest
    have shape : printElements ((a :: b :: as).map toJson) ++ closeBracket :: rest =
        (toJson a).print ++ comma :: later := by
      simp [later, printElements_cons, printMore]
    have begins : later = (toJson b).print ++ (printMore (as.map toJson) ++ closeBracket :: rest) := by
      simp [later, printElements_cons]
    obtain ⟨_, taken⟩ := reads _ (ends_comma later)
    -- What comes after the comma must not close the array.
    obtain ⟨c, t, first, noBracket, -⟩ := first?_of_print begins
    have visible : isSpace comma = false := rfl
    have within : later.length ≤ whole.length := by
      rw [shape] at h
      simp only [List.length_append, List.length_cons] at h
      omega
    obtain ⟨h', rests⟩ := ih each.2 (a :: done) within (each.2 b List.mem_cons_self)
    simp only [shape]
    refine ⟨h', ?_⟩
    rw [Reader.elementsFrom]
    simp only [taken, first?_cons visible, first, if_true, noBracket, if_false]
    rw [if_neg (by decide), rests, List.reverse_cons, List.append_assoc, List.singleton_append]

theorem takes_elements {as : List α} (each : ∀ e ∈ as, Reads element (toJson e) e)
    (rest : Bytes) :
    Takes (Reader.elements element) (printElements (as.map toJson) ++ closeBracket :: rest)
      as rest := by
  cases as with
  | nil => exact ⟨Nat.lt_succ_self _, rfl⟩
  | cons a as =>
    have begins : printElements ((a :: as).map toJson) ++ closeBracket :: rest =
        (toJson a).print ++ (printMore (as.map toJson) ++ closeBracket :: rest) := by
      simp [printElements_cons]
    obtain ⟨b, t, first, noBracket, -⟩ := first?_of_print begins
    obtain ⟨h, taken⟩ := takes_elementsFrom each [] rest (Nat.le_refl _)
    refine ⟨h, ?_⟩
    simp only [Reader.elements, first, noBracket, if_false]
    exact taken

theorem print_array_append (elements : List Json) (rest : Bytes) :
    (array elements).print ++ rest =
      openBracket :: (printElements elements ++ closeBracket :: rest) := by
  simp [print]

theorem reads_list {as : List α} (each : ∀ e ∈ as, Reads element (toJson e) e) :
    Reads (Reader.list (some element)) (.array (as.map toJson)) as := by
  intro rest _
  obtain ⟨h, taken⟩ := takes_elements each rest
  rw [print_array_append]
  refine ⟨Nat.lt_succ_of_lt h, ?_⟩
  change (Reader.elements element _).map _ = _
  rw [taken]
  rfl

/-! ## Objects -/

def printOthers : List (String × Json) → Bytes
  | [] => []
  | (name, a) :: as => comma :: (printString name ++ colon :: (print a ++ printOthers as))

theorem printMembers_cons (name : String) (a : Json) (as : List (String × Json)) :
    printMembers ((name, a) :: as) =
      printString name ++ colon :: (a.print ++ printOthers as) := by
  induction as generalizing name a with
  | nil => simp [printMembers, printOthers]
  | cons m as ih =>
    obtain ⟨later, b⟩ := m
    rw [printMembers, ih, printOthers]
    · simp
    · nofun

theorem printOthers_append (as bs : List (String × Json)) :
    printOthers (as ++ bs) = printOthers as ++ printOthers bs := by
  induction as with
  | nil => rfl
  | cons m as ih =>
    obtain ⟨name, a⟩ := m
    simp [printOthers, ih]

/-- A member from after the quote that opens its name, and what follows it. -/
def memberText (name : String) (j : Json) (tail : Bytes) : Bytes :=
  (utf8 name).flatMap escapeByte ++ quote :: colon :: (j.print ++ tail)

theorem printOthers_cons (name : String) (j : Json) (members : List (String × Json))
    (tail : Bytes) :
    printOthers ((name, j) :: members) ++ tail =
      comma :: quote :: memberText name j (printOthers members ++ tail) := by
  simp [memberText, printOthers, printString]

theorem printMembers_cons_append (name : String) (j : Json) (members : List (String × Json))
    (tail : Bytes) :
    printMembers ((name, j) :: members) ++ tail =
      quote :: memberText name j (printOthers members ++ tail) := by
  simp [memberText, printMembers_cons, printString]

/-- One after another, the members bring what the reader has made so far to its last. -/
inductive Steps (member : σ → String → Except Error (Reader σ)) :
    σ → List (String × Json) → σ → Prop
  | nil (state : σ) : Steps member state [] state
  | cons {state next last : σ} {name : String} {j : Json} {members : List (String × Json)}
      {read : Reader σ} (found : member state name = .ok read) (reads : Reads read j next)
      (steps : Steps member next members last) : Steps member state ((name, j) :: members) last

variable {member : σ → String → Except Error (Reader σ)} {state last : σ}

theorem takes_membersFrom {whole : Bytes} {name : String} {j : Json}
    {members : List (String × Json)} (steps : Steps member state ((name, j) :: members) last)
    (rest : Bytes)
    (h : (memberText name j (printOthers members ++ closeBrace :: rest)).length ≤ whole.length) :
    ∃ h', Reader.membersFrom member state
        (memberText name j (printOthers members ++ closeBrace :: rest)) h =
      .ok (last, (⟨rest, h'⟩ : Rest whole)) := by
  unfold memberText at h ⊢
  induction members generalizing state name j with
  | nil =>
    obtain _ | ⟨found, reads, ⟨⟩⟩ := steps
    obtain ⟨_, named⟩ := takeString_print name (colon :: (j.print ++ closeBrace :: rest))
    obtain ⟨_, taken⟩ := reads (closeBrace :: rest) (ends_closeBrace rest)
    have separated : isSpace colon = false := rfl
    have closed : isSpace closeBrace = false := rfl
    simp only [printOthers, List.nil_append] at h ⊢
    refine ⟨by simp at h; omega, ?_⟩
    rw [Reader.membersFrom]
    simp only [named, found, first?_cons separated, taken, first?_cons closed, if_true]
  | cons m members ih =>
    obtain ⟨other, k⟩ := m
    obtain _ | ⟨found, reads, later⟩ := steps
    let tail := memberText other k (printOthers members ++ closeBrace :: rest)
    have shape : printOthers ((other, k) :: members) ++ closeBrace :: rest =
        comma :: quote :: tail :=
      printOthers_cons other k members (closeBrace :: rest)
    obtain ⟨_, named⟩ := takeString_print name (colon :: (j.print ++ comma :: quote :: tail))
    obtain ⟨_, taken⟩ := reads (comma :: quote :: tail) (ends_comma _)
    have separated : isSpace colon = false := rfl
    have continued : isSpace comma = false := rfl
    have opened : isSpace quote = false := rfl
    have within : tail.length ≤ whole.length := by
      rw [shape] at h
      simp only [List.length_append, List.length_cons] at h
      omega
    obtain ⟨h', rests⟩ := ih later within
    simp only [shape]
    refine ⟨h', ?_⟩
    rw [Reader.membersFrom]
    simp only [named, found, first?_cons separated, taken, first?_cons continued,
      first?_cons opened, if_true]
    rw [if_neg (by decide)]
    exact rests

theorem takes_members {members : List (String × Json)} (steps : Steps member state members last)
    (rest : Bytes) :
    Takes (Reader.members member state) (printMembers members ++ closeBrace :: rest) last rest := by
  cases members with
  | nil =>
    cases steps
    exact ⟨Nat.lt_succ_self _, rfl⟩
  | cons m members =>
    obtain ⟨name, j⟩ := m
    let tail := memberText name j (printOthers members ++ closeBrace :: rest)
    have opened : isSpace quote = false := rfl
    have within : tail.length ≤ (quote :: tail).length := Nat.le_succ _
    obtain ⟨h, taken⟩ := takes_membersFrom steps rest within
    rw [printMembers_cons_append]
    refine ⟨h, ?_⟩
    simp only [Reader.members, first?_cons opened, if_true]
    rw [if_neg (by decide)]
    exact taken

theorem print_object_append (members : List (String × Json)) (rest : Bytes) :
    (object members).print ++ rest =
      openBrace :: (printMembers members ++ closeBrace :: rest) := by
  simp [print]

theorem reads_object {wanted : String} {members : List (String × Json)}
    (steps : Steps member state members last) :
    Reads (Reader.object wanted (some member) state) (.object members) last := by
  intro rest _
  obtain ⟨h, taken⟩ := takes_members steps rest
  rw [print_object_append]
  refine ⟨Nat.lt_succ_of_lt h, ?_⟩
  change (Reader.members member state _).map _ = _
  rw [taken]
  rfl

/-- What the reader has made depends on the names it has read: so it is enough to see what each
member adds. -/
theorem steps_of_each {members : List (String × Json)} (state : List String → σ)
    (distinct : (members.map (·.1)).Nodup)
    (each : ∀ names, ∀ m ∈ members, m.1 ∉ names →
      ∃ read, member (state names) m.1 = .ok read ∧ Reads read m.2 (state (m.1 :: names))) :
    Steps member (state []) members (state (members.map (·.1)).reverse) := by
  -- The names that were read before are those of the members in front, last first.
  have from_names : ∀ names, (∀ m ∈ members, m.1 ∉ names) →
      Steps member (state names) members (state ((members.map (·.1)).reverse ++ names)) := by
    induction members with
    | nil => exact fun names _ => .nil _
    | cons m members ih =>
      intro names fresh
      rw [List.map_cons, List.nodup_cons] at distinct
      rw [List.forall_mem_cons] at fresh
      obtain ⟨read, found, reads⟩ := each names m List.mem_cons_self fresh.1
      have later := ih distinct.2
        (fun names k inside => each names k (List.mem_cons_of_mem _ inside)) (m.1 :: names)
        fun k inside => by
          rw [List.mem_cons, not_or]
          refine ⟨fun same => distinct.1 ?_, fresh.2 k inside⟩
          exact List.mem_map.mpr ⟨k, inside, same⟩
      rw [List.map_cons, List.reverse_cons, List.append_assoc, List.singleton_append]
      exact .cons found reads later
  simpa using from_names [] (by simp)

/-! ## Dictionaries -/

theorem steps_of_dict {d : Dict α} {member : σ → String → Except Error (Reader σ)}
    (state : Dict α → σ)
    (each : ∀ (done : Dict α), ∀ e ∈ d.entries, ∃ read, member (state done) e.1 = .ok read ∧
      Reads read (toJson e.2) (state (done.insert e.1 e.2))) :
    Steps member (state .empty) (d.entries.map fun e => (e.1, toJson e.2)) (state d) := by
  have names : (d.entries.map fun e => (e.1, toJson e.2)).map (·.1) = d.entries.map (·.1) := by
    simp
  have each_name : ∀ done, ∀ m ∈ d.entries.map (fun e => (e.1, toJson e.2)), m.1 ∉ done →
      ∃ read, member (state (d.restrict done)) m.1 = .ok read ∧
        Reads read m.2 (state (d.restrict (m.1 :: done))) := by
    intro done m inside _
    obtain ⟨e, member, rfl⟩ := List.mem_map.mp inside
    obtain ⟨read, found, reads⟩ := each (d.restrict done) e member
    rw [Dict.insert_restrict (Dict.find?_eq_some_iff.mpr member)] at reads
    exact ⟨read, found, reads⟩
  have steps := steps_of_each (fun done => state (d.restrict done)) (names ▸ d.sorted.nodup)
    each_name
  rwa [names, Dict.restrict_nil, Dict.restrict_eq_self fun e inside =>
    List.mem_reverse.mpr (List.mem_map.mpr ⟨e, inside, rfl⟩)] at steps

theorem reads_dict {d : Dict α} {value : Reader α}
    (each : ∀ e ∈ d.entries, Reads value (toJson e.2) e.2) :
    Reads (Reader.dict (some value)) (.object (d.entries.map fun e => (e.1, toJson e.2))) d :=
  reads_object (steps_of_dict id fun done e inside =>
    ⟨_, rfl, (each e inside).map (done.insert e.1)⟩)

/-! ## Records -/

section

variable {next : σ} {name : String} {j : Json} {a : α} {read : Reader α} {set : α → σ}

theorem exists_reads (found : member state name = .ok (read.map set)) (reads : Reads read j a)
    (same : set a = next) : ∃ read, member state name = .ok read ∧ Reads read j next :=
  ⟨_, found, same ▸ reads.map set⟩

/-- A field that was not met before takes what its member is read as. -/
theorem exists_reads_once {held : Option β}
    (found : member state name = Reader.once name held.isSome (read.map set))
    (fresh : held = none) (reads : Reads read j a) (same : set a = next) :
    ∃ read, member state name = .ok read ∧ Reads read j next := by
  subst fresh
  exact exists_reads found reads same

/-- It is enough to see what each member adds, and what is made once all were read. -/
theorem reads_record {wanted : String} {d : Dict Json} {start : σ} {b : β}
    {finish : σ → Except Error β} (state : List String → σ) (empty : state [] = start)
    (each : ∀ names, ∀ m ∈ d.entries, m.1 ∉ names →
      ∃ read, member (state names) m.1 = .ok read ∧ Reads read m.2 (state (m.1 :: names)))
    (made : ∀ names, (∀ m ∈ d.entries, m.1 ∈ names) → finish (state names) = .ok b) :
    Reads ((Reader.object wanted (some member) start).andThen finish) (.object d.entries) b := by
  have steps := steps_of_each state d.sorted.nodup each
  rw [empty] at steps
  refine (reads_object steps).andThen (made _ fun m inside => ?_)
  exact List.mem_reverse.mpr (List.mem_map.mpr ⟨m, inside, rfl⟩)

theorem required_eq_ok_iff {o : Option α} : required name o = .ok a ↔ o = some a := by
  cases o <;> simp [required]

end

/-! ## Any value -/

theorem Integral.exact {j : Json} (integral : j.Integral) : j.HasExactNumber :=
  integral j (mem_parts.mpr (.inl rfl))

theorem reads_number (inner : Option (Reader Json)) {n : Int} (exact : IsExact n) :
    Reads (Reader.valueOf inner) (.number (.integer n exact)) (.number (.integer n exact)) := by
  intro rest ends
  change Takes _ (printInteger n ++ rest) _ _
  obtain ⟨b, t, written, start, h, taken⟩ := takes_number exact ends
  have visible := not_isSpace_of_isNumberStart start
  have other := fun c => ne_of_isNumberStart (c := c) start
  rw [written]
  refine ⟨h, ?_⟩
  simp only [Reader.valueOf, first?_cons visible, other 0x6E rfl, other 0x74 rfl, other 0x66 rfl,
    start, if_true, if_false, taken, Rest.afterFirst]

theorem reads_leaf (inner : Option (Reader Json)) {j : Json} (flat : j.nesting = 0)
    (exact : j.HasExactNumber) : Reads (Reader.valueOf inner) j j := by
  cases j with
  | null => exact reads_word 0x6E (utf8 "ull") (by decide) fun _ => rfl
  | bool b =>
    cases b with
    | true => exact reads_word 0x74 (utf8 "rue") (by decide) fun _ => rfl
    | false => exact reads_word 0x66 (utf8 "alse") (by decide) fun _ => rfl
  | number n =>
    cases n with
    | integer n written => exact reads_number inner written
    | double => exact exact.elim
  | string s =>
    intro rest _
    obtain ⟨h, taken⟩ := takeString_print s rest
    rw [print, printString_append]
    refine ⟨Nat.lt_succ_of_lt h, ?_⟩
    change (takeString _).map _ = _
    rw [taken]
    rfl
  | array elements => cases flat
  | object members => cases flat

theorem reads_array {inner : Reader Json} {elements : List Json}
    (each : ∀ e ∈ elements, Reads inner e e) :
    Reads (Reader.valueOf (some inner)) (.array elements) (.array elements) := by
  intro rest _
  have each_id : ∀ e ∈ elements, Reads inner (id e) e := each
  have elementsTaken := takes_elements each_id rest
  rw [List.map_id] at elementsTaken
  obtain ⟨h, taken⟩ := elementsTaken
  rw [print_array_append]
  refine ⟨Nat.lt_succ_of_lt h, ?_⟩
  change (Reader.elements inner _).map _ = _
  rw [taken]
  rfl

theorem reads_members {inner : Reader Json} {members : List (String × Json)}
    (sorted : Sorted members) (each : ∀ m ∈ members, Reads inner m.2 m.2) :
    Reads (Reader.valueOf (some inner)) (.object members) (.object members) := by
  intro rest _
  have each_id : ∀ (done : Dict Json), ∀ m ∈ members, ∃ read,
      Reader.insertMember inner done.entries m.1 = .ok read ∧
        Reads read (id m.2) (done.insert m.1 m.2).entries :=
    fun done m inside => ⟨_, rfl, (each m inside).map fun a => insertEntry m.1 a done.entries⟩
  have steps := steps_of_dict (d := ⟨members, sorted⟩) Dict.entries each_id
  have same : (members.map fun m => (m.1, id m.2)) = members := List.map_id' members
  rw [same] at steps
  obtain ⟨h, taken⟩ := takes_members steps rest
  rw [print_object_append]
  refine ⟨Nat.lt_succ_of_lt h, ?_⟩
  change (Reader.members (Reader.insertMember inner) Dict.empty.entries _).map _ = _
  rw [taken]
  rfl

theorem reads_value {depth : Nat} {j : Json} (fits : Fits depth j) (integral : j.Integral) :
    Reads (Reader.value depth) j j := by
  induction depth generalizing j with
  | zero => exact reads_leaf none (Nat.le_zero.mp fits.shallow) integral.exact
  | succ depth ih =>
    cases j with
    | array elements =>
      rw [fits_array] at fits
      rw [integral_array] at integral
      exact reads_array fun e inside => ih (fits e inside) (integral e inside)
    | object members =>
      rw [fits_object] at fits
      rw [integral_object] at integral
      exact reads_members fits.1 fun m inside => ih (fits.2 m inside) (integral m inside)
    | _ => exact reads_leaf _ rfl integral.exact

/-! ## At every depth -/

/-- What is written of `a` is read as it wherever it fits. -/
def Faithful (read : Nat → Reader α) (toJson : α → Json) (a : α) : Prop :=
  ∀ depth, Fits depth (toJson a) → (toJson a).Integral → Reads (read depth) (toJson a) a

theorem faithful_value (j : Json) : Faithful Reader.value id j :=
  fun _ fits integral => reads_value fits integral

variable {read : Nat → Reader α}

theorem faithful_list {as : List α} (each : ∀ a ∈ as, Faithful read toJson a) :
    Faithful (fun depth => Reader.list (Reader.within read depth))
      (fun as => .array (as.map toJson)) as := by
  intro depth fits integral
  rw [integral_array, List.forall_mem_map] at integral
  cases depth with
  | zero => exact absurd fits not_fits_array
  | succ depth =>
    rw [fits_array, List.forall_mem_map] at fits
    exact reads_list fun a member => each a member depth (fits a member) (integral a member)

theorem faithful_dict {d : Dict α} (each : ∀ e ∈ d.entries, Faithful read toJson e.2) :
    Faithful (fun depth => Reader.dict (Reader.within read depth))
      (fun d => .object (d.entries.map fun e => (e.1, toJson e.2))) d := by
  intro depth fits integral
  rw [integral_object, List.forall_mem_map] at integral
  cases depth with
  | zero => exact absurd fits not_fits_object
  | succ depth =>
    rw [fits_object, List.forall_mem_map] at fits
    exact reads_dict fun e member =>
      each e member depth (fits.2 e member) (integral e member)

theorem faithful_memberDict (m : Members) : Faithful Reader.memberDict ofMembers m := by
  have same : m.entries.map (fun e => (e.1, id e.2)) = m.entries := List.map_id' _
  have dict := faithful_dict (d := m) fun e _ => faithful_value e.2
  simp only [Faithful, same] at dict
  exact dict

theorem parse_of_reads {read : Reader α} {j : Json} {a : α} (reads : Reads read j a) :
    Reader.parse read j.print = .ok a := by
  have whole := reads [] ends_nil
  rw [List.append_nil] at whole
  obtain ⟨h, taken⟩ := whole
  rw [Reader.parse, taken]
  rfl

end Ucan.Json
