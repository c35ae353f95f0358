import Ucan.Payload
import Ucan.Proofs.Capability
import Ucan.Proofs.Did
import Ucan.Proofs.Header

/-!
Payloads are read from their canonical text as they are, but for facts that are null, which are
taken for none, and for values nested too deep. Whatever was read can be written again.
-/

set_option autoImplicit false

namespace Ucan.Payload

open Json

def fieldNames : List String :=
  ["ucv", "iss", "aud", "exp", "nbf", "nnc", "fct", "cap", "att", "prf"]

structure Readable (p : Payload) : Prop where
  issuer : p.issuer.Readable
  audience : p.audience.Readable
  facts : p.facts ≠ some .null
  attenuations : ∀ as ∈ p.attenuations, ∀ a ∈ as, a.Readable
  apart : ∀ e ∈ p.extra.entries, e.1 ∉ fieldNames
  fits : Fits maxDepth p.toJson

/-- What is made of the members of those names. -/
def draft (p : Payload) (names : List String) : Draft where
  version := if "ucv" ∈ names then some p.version else none
  issuer := if "iss" ∈ names then some p.issuer else none
  audience := if "aud" ∈ names then some p.audience else none
  expiresAt := if "exp" ∈ names then some p.expiresAt else none
  notBefore := if "nbf" ∈ names then some p.notBefore else none
  nonce := if "nnc" ∈ names then some p.nonce else none
  facts := if "fct" ∈ names then some p.facts else none
  capabilityMap := if "cap" ∈ names then some p.capabilityMap else none
  attenuations := if "att" ∈ names then some p.attenuations else none
  proofList := if "prf" ∈ names then some p.proofList else none
  extra := p.extra.restrict names

variable {p : Payload} {depth : Nat}

theorem names_fields (p : Payload) : (p.fields.map (·.1)).Sublist fieldNames := by
  simp only [fields, List.map_append]
  exact (((((((names_optionalMember.append (.refl ["iss", "aud", "exp"])).append
    names_optionalMember).append names_optionalMember).append names_optionalMember).append
    names_optionalMember).append names_optionalMember).append names_optionalMember)

theorem mem_toMembers (apart : ∀ e ∈ p.extra.entries, e.1 ∉ fieldNames) {e : String × Json} :
    e ∈ p.toMembers.entries ↔ e ∈ p.fields ∨ e ∈ p.extra.entries :=
  Dict.mem_insertAll_ofList ((names_fields p).nodup (by decide)) fun e other field =>
    apart e other ((names_fields p).subset field)

/-- What holds of all values without others inside, and of the parts that may have some, holds of all
that a payload is written as. -/
theorem forall_members {P : Json → Prop} (apart : ∀ e ∈ p.extra.entries, e.1 ∉ fieldNames)
    (leaf : ∀ j : Json, j.nesting = 0 → j.HasExactNumber → P j) (facts : ∀ j ∈ p.facts, P j)
    (map : ∀ map ∈ p.capabilityMap, P map.toJson)
    (attenuations : ∀ as ∈ p.attenuations, P (.array (as.map (Json.ofMembers ·.toMembers))))
    (proofs : ∀ ps ∈ p.proofList, P (.array (ps.map .string)))
    (extra : ∀ e ∈ p.extra.entries, P e.2) : ∀ e ∈ p.toMembers.entries, P e.2 := by
  intro e member
  rcases (mem_toMembers apart).mp member with field | other
  · simp only [fields, List.mem_append, List.mem_cons, List.not_mem_nil, or_false,
      mem_optionalMember, or_assoc] at field
    rcases field with ⟨_, _, rfl⟩ | rfl | rfl | rfl | ⟨_, _, rfl⟩ | ⟨_, _, rfl⟩ |
      ⟨j, present, rfl⟩ | ⟨m, present, rfl⟩ | ⟨as, present, rfl⟩ | ⟨ps, present, rfl⟩
    · exact leaf _ rfl trivial
    · exact leaf _ rfl trivial
    · exact leaf _ rfl trivial
    · cases p.expiresAt <;> exact leaf _ rfl trivial
    · exact leaf _ rfl trivial
    · exact leaf _ rfl trivial
    · exact facts j present
    · exact map m present
    · exact attenuations as present
    · exact proofs ps present
  · exact extra e other

theorem reads_time (time : Option UInt64) :
    Reads (Reader.option Reader.uint64) (time.elim .null ofTime) time := by
  cases time with
  | none => exact reads_option_null _
  | some t => exact reads_option_some nofun (reads_uint64 t)

theorem reads_field (readable : p.Readable) (names : List String) {m : String × Json}
    (field : m ∈ p.fields) (fresh : m.1 ∉ names) (fits : Fits depth m.2)
    (integral : m.2.Integral) :
    ∃ read, Draft.member depth (p.draft names) m.1 = .ok read ∧
      Reads read m.2 (p.draft (m.1 :: names)) := by
  have absent {name : String} : name ∈ fieldNames → p.extra.find? name = none :=
    Dict.find?_of_apart readable.apart
  simp only [fields, List.mem_append, List.mem_cons, List.not_mem_nil, or_false,
    mem_optionalMember, or_assoc] at field
  rcases field with ⟨version, present, rfl⟩ | rfl | rfl | rfl | ⟨time, present, rfl⟩ |
    ⟨nonce, present, rfl⟩ | ⟨facts, present, rfl⟩ | ⟨map, present, rfl⟩ |
    ⟨attenuations, present, rfl⟩ | ⟨proofs, present, rfl⟩
  · refine exists_reads_once rfl (if_neg fresh)
      (reads_option_some nofun (reads_string version)) ?_
    simp [draft, present, Dict.restrict_of_absent (absent (by decide : "ucv" ∈ fieldNames))]
  · refine exists_reads_once rfl (if_neg fresh) (reads_textOf readable.issuer) ?_
    simp [draft, Dict.restrict_of_absent (absent (by decide : "iss" ∈ fieldNames))]
  · refine exists_reads_once rfl (if_neg fresh) (reads_textOf readable.audience) ?_
    simp [draft, Dict.restrict_of_absent (absent (by decide : "aud" ∈ fieldNames))]
  · refine exists_reads_once rfl (if_neg fresh) (reads_time p.expiresAt) ?_
    simp [draft, Dict.restrict_of_absent (absent (by decide : "exp" ∈ fieldNames))]
  · refine exists_reads_once rfl (if_neg fresh)
      (reads_option_some nofun (reads_uint64 time)) ?_
    simp [draft, present, Dict.restrict_of_absent (absent (by decide : "nbf" ∈ fieldNames))]
  · refine exists_reads_once rfl (if_neg fresh)
      (reads_option_some nofun (reads_string nonce)) ?_
    simp [draft, present, Dict.restrict_of_absent (absent (by decide : "nnc" ∈ fieldNames))]
  · have known : facts ≠ .null := fun null => readable.facts (null ▸ present)
    refine exists_reads_once rfl (if_neg fresh)
      (reads_option_some known (reads_value fits integral)) ?_
    simp [draft, present, Dict.restrict_of_absent (absent (by decide : "fct" ∈ fieldNames))]
  · refine exists_reads_once rfl (if_neg fresh)
      (reads_option_some nofun (map.faithful depth fits integral)) ?_
    simp [draft, present, Dict.restrict_of_absent (absent (by decide : "cap" ∈ fieldNames))]
  · have each := faithful_list fun a member =>
      Attenuation.faithful (readable.attenuations attenuations present a member)
    refine exists_reads_once rfl (if_neg fresh)
      (reads_option_some nofun (each depth fits integral)) ?_
    simp [draft, present, Dict.restrict_of_absent (absent (by decide : "att" ∈ fieldNames))]
  · have each : Faithful (fun depth => Reader.list (Reader.within (fun _ => Reader.string) depth))
        (fun ps => .array (ps.map .string)) proofs :=
      faithful_list fun s _ _ _ _ => reads_string s
    refine exists_reads_once rfl (if_neg fresh)
      (reads_option_some nofun (each depth fits integral)) ?_
    simp [draft, present, Dict.restrict_of_absent (absent (by decide : "prf" ∈ fieldNames))]

theorem reads_member (readable : p.Readable) (names : List String) {m : String × Json}
    (inside : m ∈ p.toMembers.entries) (fresh : m.1 ∉ names) (fits : Fits depth m.2)
    (integral : m.2.Integral) :
    ∃ read, Draft.member depth (p.draft names) m.1 = .ok read ∧
      Reads read m.2 (p.draft (m.1 :: names)) := by
  rcases (mem_toMembers readable.apart).mp inside with field | other
  · exact reads_field readable names field fresh fits integral
  · have unknown := readable.apart m other
    simp only [fieldNames, List.mem_cons, not_or] at unknown
    obtain ⟨noVersion, noIssuer, noAudience, noExpiry, noStart, noNonce, noFacts, noMap,
      noAttenuations, noProofs, -⟩ := unknown
    refine exists_reads
      (by rw [Draft.member, if_neg noVersion, if_neg noIssuer, if_neg noAudience, if_neg noExpiry,
        if_neg noStart, if_neg noNonce, if_neg noFacts, if_neg noMap, if_neg noAttenuations,
        if_neg noProofs])
      (reads_value fits integral) ?_
    simp [draft, Ne.symm noVersion, Ne.symm noIssuer, Ne.symm noAudience, Ne.symm noExpiry,
      Ne.symm noStart, Ne.symm noNonce, Ne.symm noFacts, Ne.symm noMap, Ne.symm noAttenuations,
      Ne.symm noProofs, Dict.insert_restrict (Dict.find?_eq_some_iff.mpr other)]

/-- Once the members of all fields that have one were read, the payload is made. -/
theorem finish_draft {names : List String} (fields : ∀ name ∈ p.fields.map (·.1), name ∈ names)
    (others : ∀ e ∈ p.extra.entries, e.1 ∈ names) : (p.draft names).finish = .ok p := by
  have issuer := fields "iss" (by simp [Payload.fields])
  have audience := fields "aud" (by simp [Payload.fields])
  have expiresAt := fields "exp" (by simp [Payload.fields])
  have version := join_read fun (v : String) (present : p.version = some v) =>
    fields "ucv" (by simp [Payload.fields, optionalMember, present])
  have notBefore := join_read fun (v : UInt64) (present : p.notBefore = some v) =>
    fields "nbf" (by simp [Payload.fields, optionalMember, present])
  have nonce := join_read fun (v : String) (present : p.nonce = some v) =>
    fields "nnc" (by simp [Payload.fields, optionalMember, present])
  have facts := join_read fun (v : Json) (present : p.facts = some v) =>
    fields "fct" (by simp [Payload.fields, optionalMember, present])
  have map := join_read fun (v : CapabilityMap) (present : p.capabilityMap = some v) =>
    fields "cap" (by simp [Payload.fields, optionalMember, present])
  have attenuations := join_read fun (v : List Attenuation) (present : p.attenuations = some v) =>
    fields "att" (by simp [Payload.fields, optionalMember, present])
  have proofList := join_read fun (v : List String) (present : p.proofList = some v) =>
    fields "prf" (by simp [Payload.fields, optionalMember, present])
  have extra := Dict.restrict_eq_self (d := p.extra) others
  simp only [Draft.finish, draft, if_pos issuer, if_pos audience, if_pos expiresAt, version,
    notBefore, nonce, facts, map, attenuations, proofList, extra]
  rfl

theorem parse_canonical (readable : p.Readable) (integral : p.toJson.Integral) :
    parse p.toJson.canonical = .ok p := by
  have inside := (fits_object.mp readable.fits).2
  rw [canonical_of_ordered readable.fits.ordered]
  refine parse_of_reads (reads_record p.draft (by simp [draft, Dict.restrict_nil]) ?_ ?_)
  · exact fun names m member fresh => reads_member readable names member fresh (inside m member)
      (integral_object.mp integral m member)
  · intro names listed
    refine finish_draft (List.forall_mem_map.mpr fun e field => ?_) fun e other => ?_
    · exact listed e ((mem_toMembers readable.apart).mpr (.inl field))
    · exact listed e ((mem_toMembers readable.apart).mpr (.inr other))

/-! ## What was read -/

/-- What the reader has made so far can be written again. -/
structure Draft.Sound (depth : Nat) (d : Draft) : Prop where
  issuer : ∀ did ∈ d.issuer, did.Readable
  audience : ∀ did ∈ d.audience, did.Readable
  facts : ∀ j ∈ d.facts.join, Fits depth j ∧ j ≠ .null
  map : ∀ map ∈ d.capabilityMap.join, Fits depth map.toJson
  attenuations : ∀ as ∈ d.attenuations.join, (∀ a ∈ as, a.Readable) ∧
    Fits depth (.array (as.map (Json.ofMembers ·.toMembers)))
  proofs : ∀ ps ∈ d.proofList.join, Fits depth (.array (ps.map .string))
  extra : ∀ e ∈ d.extra.entries, e.1 ∉ fieldNames ∧ Fits depth e.2

theorem yields_did : Yields Payload.did Did.Readable :=
  (yields_textOf Did.parse Did.Error.message).imp fun _ ⟨_, parsed⟩ => Did.readable_of_parse parsed

theorem yields_attenuations (depth : Nat) :
    Yields (Reader.list (Reader.within Attenuation.reader depth)) fun as =>
      (∀ a ∈ as, a.Readable) ∧ Fits depth (.array (as.map (Json.ofMembers ·.toMembers))) := by
  cases depth with
  | zero => exact yields_list_none
  | succ depth =>
    refine (Attenuation.yields_reader depth).list.imp fun as each => ?_
    rw [fits_array, List.forall_mem_map]
    exact ⟨fun a member => (each a member).1, fun a member => (each a member).2⟩

theorem confined_strings :
    Confined (fun depth => Reader.list (Reader.within (fun _ => Reader.string) depth))
      fun as => .array (as.map .string) :=
  confined_list fun _ => (yields_true _).imp fun _ _ => fits_of_flat rfl

theorem yields_member (d : Draft) (name : String) (read : Reader Draft) (sound : d.Sound depth)
    (found : Draft.member depth d name = .ok read) : Yields read (Draft.Sound depth) := by
  unfold Draft.member at found
  by_cases version : name = "ucv"
  · rw [if_pos version] at found
    exact ((yields_true _).map fun _ _ => { sound with }).once found
  rw [if_neg version] at found
  by_cases issuer : name = "iss"
  · rw [if_pos issuer] at found
    refine (yields_did.map fun did readable => ?_).once found
    exact { sound with issuer := by simpa using readable }
  rw [if_neg issuer] at found
  by_cases audience : name = "aud"
  · rw [if_pos audience] at found
    refine (yields_did.map fun did readable => ?_).once found
    exact { sound with audience := by simpa using readable }
  rw [if_neg audience] at found
  by_cases expiry : name = "exp"
  · rw [if_pos expiry] at found
    exact ((yields_true _).map fun _ _ => { sound with }).once found
  rw [if_neg expiry] at found
  by_cases start : name = "nbf"
  · rw [if_pos start] at found
    exact ((yields_true _).map fun _ _ => { sound with }).once found
  rw [if_neg start] at found
  by_cases nonce : name = "nnc"
  · rw [if_pos nonce] at found
    exact ((yields_true _).map fun _ _ => { sound with }).once found
  rw [if_neg nonce] at found
  by_cases facts : name = "fct"
  · rw [if_pos facts] at found
    exact ((yields_option_value depth).map fun _ known => { sound with facts := known }).once found
  rw [if_neg facts] at found
  by_cases map : name = "cap"
  · rw [if_pos map] at found
    exact ((CapabilityMap.confined depth).option.map fun _ fits =>
      { sound with map := fits }).once found
  rw [if_neg map] at found
  by_cases attenuations : name = "att"
  · rw [if_pos attenuations] at found
    exact ((yields_attenuations depth).option.map fun _ known =>
      { sound with attenuations := known }).once found
  rw [if_neg attenuations] at found
  by_cases proofs : name = "prf"
  · rw [if_pos proofs] at found
    exact ((confined_strings depth).option.map fun _ fits =>
      { sound with proofs := fits }).once found
  rw [if_neg proofs] at found
  cases found
  have unknown : name ∉ fieldNames := by
    simp [fieldNames, version, issuer, audience, expiry, start, nonce, facts, map, attenuations,
      proofs]
  exact (yields_value depth).map fun v fits =>
    { sound with extra := forall_insertEntry ⟨unknown, fits⟩ sound.extra }

theorem readable_of_finish {d : Draft} (deepest : maxDepth = depth + 1) (sound : d.Sound depth)
    (made : d.finish = .ok p) : p.Readable := by
  simp only [Draft.finish, bind_eq_ok, required_eq_ok_iff] at made
  obtain ⟨issuer, issued, audience, addressed, made⟩ := made
  cases made
  have apart : ∀ e ∈ d.extra.entries, e.1 ∉ fieldNames := fun e member => (sound.extra e member).1
  constructor
  case issuer => exact sound.issuer issuer issued
  case audience => exact sound.audience audience addressed
  case facts => exact fun null => (sound.facts .null null).2 rfl
  case attenuations => exact fun as present => (sound.attenuations as present).1
  case apart => exact apart
  case fits =>
    rw [deepest]
    exact fits_object.mpr ⟨Dict.sorted _, forall_members apart (fun _ flat _ => fits_of_flat flat)
      (fun j present => (sound.facts j present).1) sound.map
      (fun as present => (sound.attenuations as present).2) sound.proofs
      fun e member => (sound.extra e member).2⟩

theorem readable_of_parse {s : Bytes} (parsed : parse s = .ok p) : p.Readable := by
  -- The payload itself is the first of the levels that may be read.
  have start : Draft.Sound 126 {} := by constructor <;> simp [Dict.empty]
  have yields : Yields reader Readable :=
    (yields_object yields_member start).andThen fun d p sound made =>
      readable_of_finish rfl sound made
  exact yields.parse parsed

theorem parse_canonical_eq_ok_iff (integral : p.toJson.Integral) :
    parse p.toJson.canonical = .ok p ↔ p.Readable :=
  ⟨readable_of_parse, fun readable => parse_canonical readable integral⟩

end Ucan.Payload
