import Ucan.Header
import Ucan.Proofs.Json.Reads
import Ucan.Proofs.Json.Yields

/-!
Headers are read from their canonical text as they are, and whatever was read can be written again.
-/

set_option autoImplicit false

namespace Ucan

open Json

section

variable {α : Type} {name : String} {toJson : α → Json} {o : Option α} {e : String × Json}

theorem mem_optionalMember :
    e ∈ optionalMember name toJson o ↔ ∃ a, o = some a ∧ e = (name, toJson a) := by
  cases o <;> simp [optionalMember]

theorem names_optionalMember :
    ((optionalMember name toJson o).map (·.1)).Sublist [name] := by
  cases o <;> simp [optionalMember]

/-- A field whose member was read, if it has one, has its value. -/
theorem join_read {names : List String} (read : ∀ a, o = some a → name ∈ names) :
    (if name ∈ names then some o else none).join = o := by
  cases o with
  | none => split <;> rfl
  | some a => rw [if_pos (read a rfl)]; rfl

end

namespace Header

def fieldNames : List String := ["alg", "typ", "ucv"]

def fields (h : Header) : List (String × Json) :=
  [("alg", .string h.algorithm), ("typ", .string h.tokenType)] ++
    optionalMember "ucv" .string h.version

/-- No field stands among the other members, and the text is not nested too deep. -/
structure Readable (h : Header) : Prop where
  apart : ∀ e ∈ h.extra.entries, e.1 ∉ fieldNames
  fits : Fits maxDepth h.toJson

/-- What is made of the members of those names. -/
def draft (h : Header) (names : List String) : Draft where
  algorithm := if "alg" ∈ names then some h.algorithm else none
  tokenType := if "typ" ∈ names then some h.tokenType else none
  version := if "ucv" ∈ names then some h.version else none
  extra := h.extra.restrict names

variable {h : Header}

theorem names_fields (h : Header) : (h.fields.map (·.1)).Sublist fieldNames :=
  (names_optionalMember.cons_cons "typ").cons_cons "alg"

theorem mem_toMembers (apart : ∀ e ∈ h.extra.entries, e.1 ∉ fieldNames) {e : String × Json} :
    e ∈ h.toMembers.entries ↔ e ∈ h.fields ∨ e ∈ h.extra.entries :=
  Dict.mem_insertAll_ofList ((names_fields h).nodup (by decide)) fun e other field =>
    apart e other ((names_fields h).subset field)

theorem forall_members {P : Json → Prop} (apart : ∀ e ∈ h.extra.entries, e.1 ∉ fieldNames)
    (text : ∀ s, P (.string s)) (extra : ∀ e ∈ h.extra.entries, P e.2) :
    ∀ e ∈ h.toMembers.entries, P e.2 := by
  intro e member
  rcases (mem_toMembers apart).mp member with field | other
  · simp only [fields, List.mem_append, List.mem_cons, List.not_mem_nil, or_false,
      mem_optionalMember] at field
    rcases field with (rfl | rfl) | ⟨_, _, rfl⟩ <;> exact text _
  · exact extra e other

theorem reads_member {depth : Nat} (apart : ∀ e ∈ h.extra.entries, e.1 ∉ fieldNames)
    (names : List String) {m : String × Json} (inside : m ∈ h.toMembers.entries)
    (fresh : m.1 ∉ names) (fits : Fits depth m.2) (integral : m.2.Integral) :
    ∃ read, Draft.member depth (h.draft names) m.1 = .ok read ∧
      Reads read m.2 (h.draft (m.1 :: names)) := by
  have absent {name : String} : name ∈ fieldNames → h.extra.find? name = none :=
    Dict.find?_of_apart apart
  rcases (mem_toMembers apart).mp inside with field | other
  · simp only [fields, List.mem_append, List.mem_cons, List.not_mem_nil, or_false,
      mem_optionalMember] at field
    rcases field with (rfl | rfl) | ⟨version, present, rfl⟩
    · refine exists_reads_once rfl (if_neg fresh) (reads_string _) ?_
      simp [draft, Dict.restrict_of_absent (absent (by decide : "alg" ∈ fieldNames))]
    · refine exists_reads_once rfl (if_neg fresh) (reads_string _) ?_
      simp [draft, Dict.restrict_of_absent (absent (by decide : "typ" ∈ fieldNames))]
    · refine exists_reads_once rfl (if_neg fresh)
        (reads_option_some nofun (reads_string version)) ?_
      simp [draft, present, Dict.restrict_of_absent (absent (by decide : "ucv" ∈ fieldNames))]
  · have unknown := apart m other
    simp only [fieldNames, List.mem_cons, not_or] at unknown
    obtain ⟨noAlgorithm, noType, noVersion, -⟩ := unknown
    refine exists_reads
      (by rw [Draft.member, if_neg noAlgorithm, if_neg noType, if_neg noVersion])
      (reads_value fits integral) ?_
    simp [draft, Ne.symm noAlgorithm, Ne.symm noType, Ne.symm noVersion,
      Dict.insert_restrict (Dict.find?_eq_some_iff.mpr other)]

/-- Once the members of all fields that have one were read, the header is made. -/
theorem finish_draft {names : List String} (fields : ∀ name ∈ h.fields.map (·.1), name ∈ names)
    (others : ∀ e ∈ h.extra.entries, e.1 ∈ names) : (h.draft names).finish = .ok h := by
  have algorithm := fields "alg" (by simp [Header.fields])
  have tokenType := fields "typ" (by simp [Header.fields])
  have version := join_read fun (v : String) (present : h.version = some v) =>
    fields "ucv" (by simp [Header.fields, optionalMember, present])
  have extra := Dict.restrict_eq_self (d := h.extra) others
  simp only [Draft.finish, draft, if_pos algorithm, if_pos tokenType, version, extra]
  rfl

theorem parse_canonical (readable : h.Readable) (integral : h.toJson.Integral) :
    parse h.toJson.canonical = .ok h := by
  obtain ⟨apart, fits⟩ := readable
  have inside := (fits_object.mp fits).2
  rw [canonical_of_ordered fits.ordered]
  refine parse_of_reads (reads_record h.draft (by simp [draft, Dict.restrict_nil]) ?_ ?_)
  · exact fun names m member fresh => reads_member apart names member fresh (inside m member)
      (integral_object.mp integral m member)
  · intro names listed
    refine finish_draft (List.forall_mem_map.mpr fun e field => ?_) fun e other => ?_
    · exact listed e ((mem_toMembers apart).mpr (.inl field))
    · exact listed e ((mem_toMembers apart).mpr (.inr other))

theorem yields_member {depth : Nat} (d : Draft) (name : String) (read : Reader Draft)
    (others : ∀ e ∈ d.extra.entries, e.1 ∉ fieldNames ∧ Fits depth e.2)
    (found : Draft.member depth d name = .ok read) :
    Yields read fun d => ∀ e ∈ d.extra.entries, e.1 ∉ fieldNames ∧ Fits depth e.2 := by
  unfold Draft.member at found
  split at found
  · exact ((yields_true _).map fun _ _ => others).once found
  split at found
  · exact ((yields_true _).map fun _ _ => others).once found
  split at found
  · exact ((yields_true _).map fun _ _ => others).once found
  next noAlgorithm noType noVersion =>
    cases found
    have unknown : name ∉ fieldNames := by simp [fieldNames, noAlgorithm, noType, noVersion]
    exact (yields_value depth).map fun v fits => forall_insertEntry ⟨unknown, fits⟩ others

theorem readable_of_parse {s : Bytes} (parsed : parse s = .ok h) : h.Readable := by
  have yields : Yields reader Readable := by
    refine (yields_object yields_member (by simp [Dict.empty])).andThen fun d h others made => ?_
    simp only [Draft.finish, bind_eq_ok] at made
    obtain ⟨algorithm, -, tokenType, -, made⟩ := made
    cases made
    have apart : ∀ e ∈ d.extra.entries, e.1 ∉ fieldNames := fun e member => (others e member).1
    exact ⟨apart, fits_object.mpr ⟨Dict.sorted _, forall_members apart
      (fun _ => fits_of_flat rfl) fun e member => (others e member).2⟩⟩
  exact yields.parse parsed

end Header

end Ucan
