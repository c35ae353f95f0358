import Mathlib.Data.List.Basic
import Ucan.Proofs.Builder

/-!
The text of a payload that was built ends in its proofs and the format version, whatever comes
before: so the text tells whether there is a proof and which.
-/

set_option autoImplicit false

namespace Ucan.Builder

open Json Ascii

/-! ## How texts end -/

def sortedMember (m : String × Json) : String × Json := (m.1, m.2.sort)

/-- The last of these members does not end like a list. -/
def Unclosed (members : List (String × Json)) : Prop :=
  ∀ front, (front ++ printOthers (members.map sortedMember)).getLast? ≠ some closeBracket

theorem unclosed_concat (members : List (String × Json)) (name : String) {j : Json} {x : UInt8}
    (last : j.sort.print.getLast? = some x) (other : x ≠ closeBracket) :
    Unclosed (members ++ [(name, j)]) := by
  intro front closed
  have whole : front ++ printOthers ((members ++ [(name, j)]).map sortedMember) =
      (front ++ printOthers (members.map sortedMember) ++ comma :: (printString name ++ [colon])) ++
        j.sort.print := by
    simp [printOthers_append, printOthers, sortedMember]
  rw [whole, List.getLast?_append, last] at closed
  exact other (Option.some.inj closed)

theorem Unclosed.optional {α : Type} {members : List (String × Json)} {toJson : α → Json}
    (unclosed : Unclosed members) (name : String) (o : Option α)
    (each : ∀ a, ∃ x, (toJson a).sort.print.getLast? = some x ∧ x ≠ closeBracket) :
    Unclosed (members ++ optionalMember name toJson o) := by
  cases o with
  | none =>
    rw [show optionalMember name toJson none = [] from rfl, List.append_nil]
    exact unclosed
  | some a =>
    obtain ⟨x, last, other⟩ := each a
    exact unclosed_concat members name last other

theorem getLast?_string (s : String) :
    ∃ x, (string s).sort.print.getLast? = some x ∧ x ≠ closeBracket := by
  refine ⟨quote, ?_, by decide⟩
  rw [sort, print, printString, List.getLast?_concat]

theorem getLast?_time (time : UInt64) :
    ∃ x, (Payload.ofTime time).sort.print.getLast? = some x ∧ x ≠ closeBracket := by
  have unsigned : ¬(time.toNat : Int) < 0 := by omega
  have written : (Payload.ofTime time).sort.print = decimal time.toNat := by
    change printInteger time.toNat = decimal time.toNat
    rw [printInteger, if_neg unsigned, Int.natAbs_natCast]
  rw [written]
  cases last : (decimal time.toNat).getLast? with
  | none => exact absurd (List.getLast?_eq_none_iff.mp last) (decimal_ne_nil _)
  | some d =>
    refine ⟨d, rfl, ?_⟩
    rintro rfl
    exact absurd (isDigit_of_mem_decimal (List.mem_of_getLast? last)) (by decide)

/-! ## The proofs in the text -/

/-- The members between the audience and the proofs. -/
def middle (b : Builder) (issuer : Did) (expiresAt : Option UInt64) : List (String × Json) :=
  [("cap", (CapabilityMap.ofList b.capabilities).toJson),
    ("exp", expiresAt.elim .null Payload.ofTime)] ++ optionalMember "fct" id b.facts ++
  [("iss", .string issuer.toString)] ++ optionalMember "nbf" Payload.ofTime b.notBefore ++
  optionalMember "nnc" .string b.nonce

theorem unclosed_middle (b : Builder) (issuer : Did) (expiresAt : Option UInt64) :
    Unclosed (b.middle issuer expiresAt) := by
  obtain ⟨x, last, other⟩ := getLast?_string issuer.toString
  have first := unclosed_concat ([("cap", (CapabilityMap.ofList b.capabilities).toJson),
    ("exp", expiresAt.elim .null Payload.ofTime)] ++ optionalMember "fct" id b.facts) "iss" last other
  exact (first.optional "nbf" b.notBefore getLast?_time).optional "nnc" b.nonce getLast?_string

def proofMembers (proofs : List String) : List (String × Json) :=
  optionalMember "prf" (fun ps => .array (ps.map .string))
    (if proofs.isEmpty then none else some proofs)

theorem entries_payload (b : Builder) (issuer audience : Did) (expiresAt : Option UInt64) :
    (b.payload issuer audience expiresAt).toMembers.entries =
      ("aud", .string audience.toString) :: (b.middle issuer expiresAt ++ proofMembers b.proofs ++
        [("ucv", .string Token.formatVersion)]) := by
  obtain ⟨_, _, _, _, _, notBefore, nonce, facts, _, proofs⟩ := b
  cases notBefore <;> cases nonce <;> cases facts <;> cases proofs <;> rfl

def ending : Bytes :=
  printOthers [("ucv", .string Token.formatVersion)] ++ [closeBrace]

/-- What comes before the proofs does not end like a list of them. -/
theorem exists_front (b : Builder) (issuer audience : Did) (expiresAt : Option UInt64) :
    ∃ front, front.getLast? ≠ some closeBracket ∧
      (b.payload issuer audience expiresAt).toJson.canonical =
        front ++ printOthers ((proofMembers b.proofs).map sortedMember) ++ ending := by
  have sorted := (b.payload issuer audience expiresAt).toMembers.sorted
  have written : (b.payload issuer audience expiresAt).toJson.canonical = openBrace ::
      (printMembers ((b.payload issuer audience expiresAt).toMembers.entries.map sortedMember) ++
        [closeBrace]) :=
    congrArg (fun members => openBrace :: (printMembers members ++ [closeBrace]))
      (sortMembers_eq_map sorted)
  refine ⟨openBrace :: (printString "aud" ++ colon :: (string audience.toString).print) ++
    printOthers ((b.middle issuer expiresAt).map sortedMember), unclosed_middle b issuer expiresAt _,
    ?_⟩
  rw [written, entries_payload, List.map_cons, sortedMember, printMembers_cons, List.map_append,
    List.map_append, printOthers_append, printOthers_append]
  simp [ending, sort, sortedMember]

/-- Where it ends is where the next quote stands. -/
def Quotable (text : String) : Prop := quote ∉ (utf8 text).flatMap escapeByte

theorem append_noProofs (front : Bytes) :
    front ++ printOthers ((proofMembers []).map sortedMember) = front :=
  List.append_nil front

theorem append_proofMembers (front : Bytes) (text : String) :
    front ++ printOthers ((proofMembers [text]).map sortedMember) =
      front ++ comma :: (printString "prf" ++ [colon, openBracket]) ++
        quote :: (utf8 text).flatMap escapeByte ++ [quote, closeBracket] := by
  simp [proofMembers, optionalMember, sortedMember, sort, sortElements, printOthers, print,
    printElements, printString]

theorem getLast?_proofMembers (front : Bytes) (text : String) :
    (front ++ printOthers ((proofMembers [text]).map sortedMember)).getLast? =
      some closeBracket := by
  rw [append_proofMembers, List.getLast?_append]
  rfl

theorem eq_of_last_mark {mark : UInt8} {front other s t : Bytes} (absent : mark ∉ s)
    (otherAbsent : mark ∉ t) (same : front ++ mark :: s = other ++ mark :: t) : s = t := by
  have back : ∀ front s : Bytes, mark ∉ s →
      (front ++ mark :: s).reverse.takeWhile (· != mark) = s.reverse := by
    intro front s absent
    rw [List.reverse_append, List.reverse_cons, List.append_assoc,
      List.takeWhile_append_of_pos fun x member => ?_, List.singleton_append,
      List.takeWhile_cons_of_neg (by simp), List.append_nil]
    exact bne_iff_ne.mpr fun found => absent (found ▸ List.mem_reverse.mp member)
  -- From the end, both texts come before the first mark.
  rw [← List.reverse_inj, ← back front s absent, ← back other t otherAbsent, same]

theorem text_eq_of_proofMembers {front other : Bytes} {s t : String} (quotable : Quotable s)
    (otherQuotable : Quotable t)
    (same : front ++ printOthers ((proofMembers [s]).map sortedMember) =
      other ++ printOthers ((proofMembers [t]).map sortedMember)) : s = t := by
  rw [append_proofMembers, append_proofMembers, List.append_left_inj] at same
  exact escape_injective (eq_of_last_mark quotable otherQuotable same)

/-- Of two payloads with the same text, both have the same proof or none has any. -/
theorem proofs_eq_of_canonical {b other : Builder} {issuer audience i a : Did}
    {expiresAt e : Option UInt64} (few : b.proofs.length ≤ 1) (otherFew : other.proofs.length ≤ 1)
    (quotable : ∀ text ∈ b.proofs, Quotable text)
    (otherQuotable : ∀ text ∈ other.proofs, Quotable text)
    (same : (b.payload issuer audience expiresAt).toJson.canonical =
      (other.payload i a e).toJson.canonical) : b.proofs = other.proofs := by
  -- Reading the texts would not do: with null facts, or nested too deep, they are not read back.
  obtain ⟨front, unclosed, written⟩ := exists_front b issuer audience expiresAt
  obtain ⟨otherFront, otherUnclosed, otherWritten⟩ := exists_front other i a e
  rw [written, otherWritten, List.append_left_inj] at same
  generalize b.proofs = proofs at *
  generalize other.proofs = others at *
  match proofs, others with
  | [], [] => rfl
  | [], [t] =>
    rw [append_noProofs] at same
    exact absurd (same ▸ getLast?_proofMembers otherFront t) unclosed
  | [s], [] =>
    rw [append_noProofs] at same
    exact absurd (same ▸ getLast?_proofMembers front s) otherUnclosed
  | [s], [t] =>
    rw [text_eq_of_proofMembers (quotable s List.mem_cons_self)
      (otherQuotable t List.mem_cons_self) same]
  | _ :: _ :: _, _ => simp at few
  | _, _ :: _ :: _ => simp at otherFew

end Ucan.Builder
