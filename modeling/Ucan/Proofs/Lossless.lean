import Ucan.Proofs.DidText
import Ucan.Proofs.Json.Mirrors
import Ucan.Proofs.Related

/-!
What is read of a header or a payload and then written is the object that stood in the text, except
that optional members that were null are dropped, and that a missing expiry is written as null.
-/

set_option autoImplicit false

namespace Ucan

open Json

variable {α : Type} {f : α → Json} {m : Members} {names : List String} {depth : Nat}

def Json.ofOption (toJson : α → Json) (o : Option α) : Json := o.elim .null toJson

theorem Json.Mirrors.ofOption {read : Reader α} (mirrors : Mirrors read depth fun a j => j = f a) :
    Mirrors (Reader.option read) depth fun o j => j = Json.ofOption f o := by
  refine mirrors.option.imp ?_
  rintro o j (⟨rfl, rfl⟩ | ⟨a, rfl, -, rfl⟩) <;> rfl

/-- The members, but not those of the names that are null. -/
def Dict.withoutNulls (m : Members) (names : List String) : Members :=
  ⟨m.entries.filter fun e => ¬(e.1 ∈ names ∧ e.2 = .null), m.sorted.filter _⟩

theorem Dict.find?_withoutNulls (m : Members) (names : List String) (k : String) :
    (m.withoutNulls names).find? k =
      if k ∈ names then (m.find? k).filter (· ≠ .null) else m.find? k := by
  ext j
  rw [find?_eq_some_iff, withoutNulls, List.mem_filter, ← find?_eq_some_iff]
  split
  next listed => simp [listed, Option.filter_eq_some_iff]
  next other => simp [other]

/-- A field that was null and one that was missing are written the same, which is not at all. -/
theorem filter_ofOption {o : Option (Option α)} (known : ∀ a ∈ o.join, f a ≠ .null) :
    o.join.map f = (o.map (Json.ofOption f)).filter (· ≠ .null) := by
  match o with
  | none | some none => rfl
  | some (some a) =>
    have kept : (some (f a)).filter (· ≠ .null) = some (f a) :=
      Option.filter_some_pos (decide_eq_true (known a rfl))
    exact kept.symm

/-! ## Headers -/

namespace Header

/-- What the members read so far were, by their names. -/
def Draft.written (d : Draft) (name : String) : Option Json :=
  if name = "alg" then d.algorithm.map .string
  else if name = "typ" then d.tokenType.map .string
  else if name = "ucv" then d.version.map (ofOption .string)
  else d.extra.find? name

theorem Draft.written_fields (d : Draft) :
    d.written "alg" = d.algorithm.map .string ∧ d.written "typ" = d.tokenType.map .string ∧
      d.written "ucv" = d.version.map (ofOption .string) := by
  simp [written]

theorem Draft.written_start (name : String) : written {} name = none := by
  simp [written]

theorem mirrors_member (d : Draft) (name : String) (read : Reader Draft)
    (found : Draft.member depth d name = .ok read) :
    Mirrors read depth fun next j =>
      ∀ k, next.written k = if k = name then some j else d.written k := by
  unfold Draft.member at found
  split at found
  next field =>
    refine mirrors_string.field (fun v k => ?_) found
    by_cases here : k = name <;> simp_all [Draft.written]
  split at found
  next field =>
    refine mirrors_string.field (fun v k => ?_) found
    by_cases here : k = name <;> simp_all [Draft.written]
  split at found
  next field =>
    refine mirrors_string.ofOption.field (fun v k => ?_) found
    by_cases here : k = name <;> simp_all [Draft.written]
  next noAlgorithm noType noVersion =>
    cases found
    refine mirrors_value.map fun v j same k => ?_
    by_cases here : k = name <;> simp_all [Draft.written, Dict.find?_insert]

theorem mirrors_reader : Mirrors reader maxDepth fun h j => ∃ (m : Members) (d : Draft),
    j = .ofMembers m ∧ (∀ name, m.find? name = d.written name) ∧ d.finish = .ok h :=
  mirrors_record Draft.written Draft.written_start (fun _ => mirrors_member) maxDepth

theorem find?_toMembers {h : Header} (apart : ∀ e ∈ h.extra.entries, e.1 ∉ fieldNames)
    (name : String) : h.toMembers.find? name =
      if name ∈ fieldNames then h.fields.lookup name else h.extra.find? name :=
  find?_record (by decide) (names_fields h) apart name

theorem toMembers_of_finish {d : Draft} {h : Header} (made : d.finish = .ok h)
    (all : ∀ name, m.find? name = d.written name)
    (apart : ∀ e ∈ h.extra.entries, e.1 ∉ fieldNames) : h.toMembers = m.withoutNulls ["ucv"] := by
  simp only [Draft.finish, bind_eq_ok, required_eq_ok_iff] at made
  obtain ⟨algorithm, signed, tokenType, typed, made⟩ := made
  cases made
  refine Dict.ext_find? fun k => ?_
  rw [find?_toMembers apart, Dict.find?_withoutNulls, all]
  split
  next field =>
    simp only [fieldNames, List.mem_cons, List.not_mem_nil, or_false] at field
    rcases field with rfl | rfl | rfl
    · simp [lookup_fields, Draft.written_fields, signed]
    · simp [lookup_fields, Draft.written_fields, typed]
    · have known : ∀ v ∈ d.version.join, Json.string v ≠ .null := by simp
      simp [lookup_fields, Draft.written_fields, filter_ofOption known]
  next other =>
    simp only [fieldNames, List.mem_cons, List.not_mem_nil, or_false, not_or] at other
    simp [Draft.written, other]

end Header

/-! ## Attenuations -/

namespace Attenuation

def Draft.written (d : Draft) (name : String) : Option Json :=
  if name = "with" then d.resource.map .string
  else if name = "can" then d.ability.map .string
  else d.extra.find? name

theorem Draft.written_start (name : String) : written {} name = none := by
  simp [written]

theorem mirrors_member (d : Draft) (name : String) (read : Reader Draft)
    (found : Draft.member depth d name = .ok read) :
    Mirrors read depth fun next j =>
      ∀ k, next.written k = if k = name then some j else d.written k := by
  unfold Draft.member at found
  split at found
  next field =>
    refine mirrors_string.field (fun v k => ?_) found
    by_cases here : k = name <;> simp_all [Draft.written]
  split at found
  next field =>
    refine mirrors_string.field (fun v k => ?_) found
    by_cases here : k = name <;> simp_all [Draft.written]
  next noResource noAbility =>
    cases found
    refine mirrors_value.map fun v j same k => ?_
    by_cases here : k = name <;> simp_all [Draft.written, Dict.find?_insert]

theorem find?_toMembers {a : Attenuation} (readable : a.Readable) (name : String) :
    a.toMembers.find? name =
      if name ∈ fieldNames then
        [("with", Json.string a.resource), ("can", .string a.ability)].lookup name
      else a.extra.find? name := by
  have names : ([("with", Json.string a.resource), ("can", .string a.ability)].map (·.1)).Sublist
    fieldNames := .refl _
  exact find?_record (by decide) names readable name

theorem toMembers_of_finish {d : Draft} {a : Attenuation} (made : d.finish = .ok a)
    (all : ∀ name, m.find? name = d.written name) (readable : a.Readable) : a.toMembers = m := by
  simp only [Draft.finish, bind_eq_ok, required_eq_ok_iff] at made
  obtain ⟨resource, held, ability, able, made⟩ := made
  cases made
  refine Dict.ext_find? fun k => ?_
  rw [find?_toMembers readable, all]
  split
  next field =>
    simp only [fieldNames, List.mem_cons, List.not_mem_nil, or_false] at field
    rcases field with rfl | rfl
    · simp [Draft.written, held]
    · simp [Draft.written, able, lookup_cons_eq]
  next other =>
    simp only [fieldNames, List.mem_cons, List.not_mem_nil, or_false, not_or] at other
    simp [Draft.written, other]

theorem mirrors_reader (depth : Nat) :
    Mirrors (reader depth) depth fun a j => j = .ofMembers a.toMembers := by
  have record : Mirrors (reader depth) depth fun a j => ∃ (m : Members) (d : Draft),
      j = .ofMembers m ∧ (∀ name, m.find? name = d.written name) ∧ d.finish = .ok a :=
    mirrors_record Draft.written Draft.written_start (fun _ => mirrors_member) depth
  refine (record.and (yields_reader depth)).imp ?_
  intro a j ⟨⟨readable, _⟩, m, d, same, all, made⟩
  rw [same, toMembers_of_finish made all readable]

end Attenuation

theorem CapabilityMap.mirrors_reader (depth : Nat) :
    Mirrors (reader depth) depth fun map j => j = map.toJson :=
  Mirrors.dict (Mirrors.dict (Mirrors.list mirrors_memberDict)) depth

/-! ## Payloads -/

namespace Payload

def Draft.written (d : Draft) (name : String) : Option Json :=
  if name = "ucv" then d.version.map (ofOption .string)
  else if name = "iss" then d.issuer.map (.string ·.toString)
  else if name = "aud" then d.audience.map (.string ·.toString)
  else if name = "exp" then d.expiresAt.map (ofOption ofTime)
  else if name = "nbf" then d.notBefore.map (ofOption ofTime)
  else if name = "nnc" then d.nonce.map (ofOption .string)
  else if name = "fct" then d.facts.map (ofOption id)
  else if name = "cap" then d.capabilityMap.map (ofOption CapabilityMap.toJson)
  else if name = "att" then
    d.attenuations.map (ofOption fun as => .array (as.map (Json.ofMembers ·.toMembers)))
  else if name = "prf" then d.proofList.map (ofOption fun ps => .array (ps.map .string))
  else d.extra.find? name

theorem Draft.written_start (name : String) : written {} name = none := by
  simp [written]

theorem Draft.written_fields (d : Draft) :
    d.written "ucv" = d.version.map (ofOption .string) ∧
      d.written "iss" = d.issuer.map (.string ·.toString) ∧
      d.written "aud" = d.audience.map (.string ·.toString) ∧
      d.written "exp" = d.expiresAt.map (ofOption ofTime) ∧
      d.written "nbf" = d.notBefore.map (ofOption ofTime) ∧
      d.written "nnc" = d.nonce.map (ofOption .string) ∧
      d.written "fct" = d.facts.map (ofOption id) ∧
      d.written "cap" = d.capabilityMap.map (ofOption CapabilityMap.toJson) ∧
      d.written "att" =
        d.attenuations.map (ofOption fun as => .array (as.map (Json.ofMembers ·.toMembers))) ∧
      d.written "prf" = d.proofList.map (ofOption fun ps => .array (ps.map .string)) := by
  simp [written]

theorem mirrors_did : Mirrors did depth fun d j => j = .string d.toString := by
  refine (mirrors_textOf Did.parse Did.Error.message).imp ?_
  rintro d j ⟨text, rfl, parsed⟩
  rw [Did.toString_of_parse parsed]

theorem mirrors_time :
    Mirrors (Reader.option Reader.uint64) depth fun o j => j = ofOption ofTime o :=
  mirrors_uint64.ofOption

theorem mirrors_facts :
    Mirrors (Reader.option (Reader.value depth)) depth fun o j => j = ofOption id o :=
  mirrors_value.ofOption

theorem mirrors_proofs (depth : Nat) :
    Mirrors (Reader.list (Reader.within (fun _ => Reader.string) depth)) depth fun ps j =>
      j = .array (ps.map .string) :=
  Mirrors.list (fun _ => mirrors_string) depth

theorem mirrors_member (d : Draft) (name : String) (read : Reader Draft)
    (found : Draft.member depth d name = .ok read) :
    Mirrors read depth fun next j =>
      ∀ k, next.written k = if k = name then some j else d.written k := by
  unfold Draft.member at found
  by_cases version : name = "ucv"
  next =>
    rw [if_pos version] at found
    refine mirrors_string.ofOption.field (fun v k => ?_) found
    by_cases here : k = "ucv" <;> simp [Draft.written, version, here]
  rw [if_neg version] at found
  by_cases issuer : name = "iss"
  next =>
    rw [if_pos issuer] at found
    refine mirrors_did.field (fun v k => ?_) found
    by_cases here : k = "iss" <;> simp [Draft.written, issuer, here]
  rw [if_neg issuer] at found
  by_cases audience : name = "aud"
  next =>
    rw [if_pos audience] at found
    refine mirrors_did.field (fun v k => ?_) found
    by_cases here : k = "aud" <;> simp [Draft.written, audience, here]
  rw [if_neg audience] at found
  by_cases expiry : name = "exp"
  next =>
    rw [if_pos expiry] at found
    refine mirrors_time.field (fun v k => ?_) found
    by_cases here : k = "exp" <;> simp [Draft.written, expiry, here]
  rw [if_neg expiry] at found
  by_cases start : name = "nbf"
  next =>
    rw [if_pos start] at found
    refine mirrors_time.field (fun v k => ?_) found
    by_cases here : k = "nbf" <;> simp [Draft.written, start, here]
  rw [if_neg start] at found
  by_cases nonce : name = "nnc"
  next =>
    rw [if_pos nonce] at found
    refine mirrors_string.ofOption.field (fun v k => ?_) found
    by_cases here : k = "nnc" <;> simp [Draft.written, nonce, here]
  rw [if_neg nonce] at found
  by_cases facts : name = "fct"
  next =>
    rw [if_pos facts] at found
    refine mirrors_facts.field (fun v k => ?_) found
    by_cases here : k = "fct" <;> simp [Draft.written, facts, here]
  rw [if_neg facts] at found
  by_cases map : name = "cap"
  next =>
    rw [if_pos map] at found
    refine (CapabilityMap.mirrors_reader depth).ofOption.field (fun v k => ?_) found
    by_cases here : k = "cap" <;> simp [Draft.written, map, here]
  rw [if_neg map] at found
  by_cases attenuations : name = "att"
  next =>
    rw [if_pos attenuations] at found
    refine (Mirrors.list Attenuation.mirrors_reader depth).ofOption.field (fun v k => ?_) found
    by_cases here : k = "att" <;> simp [Draft.written, attenuations, here]
  rw [if_neg attenuations] at found
  by_cases proofs : name = "prf"
  next =>
    rw [if_pos proofs] at found
    refine (mirrors_proofs depth).ofOption.field (fun v k => ?_) found
    by_cases here : k = "prf" <;> simp [Draft.written, proofs, here]
  rw [if_neg proofs] at found
  cases found
  refine mirrors_value.map fun v j same k => ?_
  by_cases here : k = name
  next =>
    simp only [Draft.written, here, version, issuer, audience, expiry, start, nonce, facts, map,
      attenuations, proofs, same, Dict.find?_insert, reduceIte]
  next => simp only [Draft.written, if_neg here, Dict.find?_insert]

theorem mirrors_reader : Mirrors reader maxDepth fun p j => ∃ (m : Members) (d : Draft),
    j = .ofMembers m ∧ (∀ name, m.find? name = d.written name) ∧ d.finish = .ok p :=
  mirrors_record Draft.written Draft.written_start (fun _ => mirrors_member) maxDepth

/-- The fields that are not written when there is nothing in them. -/
def optionalNames : List String := ["ucv", "nbf", "nnc", "fct", "cap", "att", "prf"]

theorem find?_toMembers {p : Payload} (apart : ∀ e ∈ p.extra.entries, e.1 ∉ fieldNames)
    (name : String) : p.toMembers.find? name =
      if name ∈ fieldNames then p.fields.lookup name else p.extra.find? name :=
  find?_record (by decide) (names_fields p) apart name

/-- Which of the members read a payload is written as. -/
theorem lookup_of_finish {d : Draft} {p : Payload} (made : d.finish = .ok p)
    (facts : p.facts ≠ some .null) :
    (∀ name ∈ optionalNames, p.fields.lookup name = (d.written name).filter (· ≠ .null)) ∧
      p.fields.lookup "iss" = d.written "iss" ∧ p.fields.lookup "aud" = d.written "aud" ∧
      p.fields.lookup "exp" = some ((d.written "exp").getD .null) ∧
      ∀ name ∉ fieldNames, p.extra.find? name = d.written name := by
  simp only [Draft.finish, bind_eq_ok, required_eq_ok_iff] at made
  obtain ⟨issuer, issued, audience, addressed, made⟩ := made
  cases made
  have known : ∀ j ∈ d.facts.join, id j ≠ .null := by
    rintro j present rfl
    exact facts present
  have sameFacts := filter_ofOption known
  rw [Option.map_id] at sameFacts
  have expiry : d.expiresAt.join.elim .null ofTime =
      (d.expiresAt.map (ofOption ofTime)).getD .null := by
    rcases d.expiresAt with _ | _ | t <;> rfl
  have unknown (name : String) (other : name ∉ fieldNames) :
      d.extra.find? name = d.written name := by
    simp only [fieldNames, List.mem_cons, List.not_mem_nil, or_false, not_or] at other
    simp only [Draft.written, other, if_false]
  simp only [optionalNames, List.forall_mem_cons, lookup_fields, Draft.written_fields, issued,
    addressed, List.not_mem_nil, false_imp_iff, implies_true, and_true, Option.map_some]
  refine ⟨⟨filter_ofOption ?_, filter_ofOption ?_, filter_ofOption ?_, sameFacts,
    filter_ofOption ?_, filter_ofOption ?_, filter_ofOption ?_⟩, trivial, trivial,
    congrArg some expiry, unknown⟩
  all_goals
    intro a _ null
    cases null

theorem toMembers_of_finish {d : Draft} {p : Payload} (made : d.finish = .ok p)
    (all : ∀ name, m.find? name = d.written name) (readable : p.Readable) :
    p.toMembers = (m.withoutNulls optionalNames).alter "exp" (·.getD .null) := by
  have ⟨optional, issuer, audience, expiry, unknown⟩ := lookup_of_finish made readable.facts
  have one_of : ∀ name ∈ fieldNames,
      name ∈ optionalNames ∨ name = "iss" ∨ name = "aud" ∨ name = "exp" := by decide
  have inside : ∀ name ∈ optionalNames, name ∈ fieldNames ∧ name ≠ "exp" := by decide
  refine Dict.ext_find? fun k => ?_
  rw [find?_toMembers readable.apart, Dict.find?_alter, Dict.find?_withoutNulls,
    Dict.find?_withoutNulls, all, all]
  split
  next field =>
    rcases one_of k field with listed | rfl | rfl | rfl
    next => rw [optional k listed, if_neg (inside k listed).2, if_pos listed]
    next => exact issuer
    next => exact audience
    next => exact expiry
  next other =>
    have notExpiry : k ≠ "exp" := fun same => other (same ▸ by decide)
    rw [unknown k other, if_neg notExpiry, if_neg fun listed => other (inside k listed).1]

end Payload

/-! ## What is kept of a text -/

/-- The header is written as the members it was read from, without the version if that was null. -/
structure Header.Keeps (h : Header) (m : Members) : Prop where
  written : h.toJson = .ofMembers (m.withoutNulls ["ucv"])
  unknown : ∀ name ∉ fieldNames, h.extra.find? name = m.find? name

structure Attenuation.Keeps (a : Attenuation) (m : Members) : Prop where
  written : a.toMembers = m
  unknown : ∀ name ∉ fieldNames, a.extra.find? name = m.find? name

/-- The payload is written as the members it was read from, without those of the optional ones that
were null, and with an expiry in any case. -/
structure Payload.Keeps (p : Payload) (m : Members) : Prop where
  written : p.toJson = .ofMembers ((m.withoutNulls optionalNames).alter "exp" (·.getD .null))
  expiresAt : ∀ j, m.find? "exp" = some j → j ≠ .null → p.expiresAt.map ofTime = some j
  notBefore : ∀ j, m.find? "nbf" = some j → j ≠ .null → p.notBefore.map ofTime = some j
  proofList : ∀ j, m.find? "prf" = some j → j ≠ .null →
    p.proofList.map (fun ps => .array (ps.map .string)) = some j
  unknown : ∀ name ∉ fieldNames, p.extra.find? name = m.find? name
  attenuations : ∀ j, m.find? "att" = some j → j ≠ .null → ∃ as ms, p.attenuations = some as ∧
    j = .array (ms.map .ofMembers) ∧ as.Forall₂ Attenuation.Keeps ms

theorem Header.keeps_of_parse {s : Bytes} {h : Header} (parsed : parse s = .ok h) :
    ∃ m, Json.parse s = .ok (.ofMembers m) ∧ h.Keeps m := by
  have ⟨j, value, m, d, same, all, made⟩ := mirrors_reader.parse parsed
  rw [same] at value
  have apart := (readable_of_parse parsed).apart
  have written := toMembers_of_finish made all apart
  have unknown (name : String) (other : name ∉ fieldNames) : h.extra.find? name = m.find? name := by
    have unlisted : name ∉ ["ucv"] := fun listed =>
      other (List.mem_cons_of_mem _ (List.mem_cons_of_mem _ listed))
    have same := find?_toMembers apart name
    rw [written, Dict.find?_withoutNulls, if_neg unlisted, if_neg other] at same
    exact same.symm
  exact ⟨m, value, congrArg Json.ofMembers written, unknown⟩

theorem Attenuation.keeps_toMembers {a : Attenuation} (readable : a.Readable) :
    a.Keeps a.toMembers := by
  refine ⟨rfl, fun name other => ?_⟩
  rw [find?_toMembers readable, if_neg other]

theorem Payload.keeps_of_parse {s : Bytes} {p : Payload} (parsed : parse s = .ok p) :
    ∃ m, Json.parse s = .ok (.ofMembers m) ∧ p.Keeps m := by
  have ⟨j, value, m, d, same, all, made⟩ := mirrors_reader.parse parsed
  rw [same] at value
  have readable := readable_of_parse parsed
  have ⟨optional, _, _, expiry, unknown⟩ := lookup_of_finish made readable.facts
  simp only [← all] at optional expiry unknown
  have kept {name : String} {j : Json} (listed : name ∈ optionalNames)
      (present : m.find? name = some j) (known : j ≠ .null) : p.fields.lookup name = some j := by
    rw [optional name listed, present]
    exact Option.filter_some_pos (decide_eq_true known)
  refine ⟨m, value, ?_⟩
  constructor
  case written => exact congrArg Json.ofMembers (toMembers_of_finish made all readable)
  case expiresAt =>
    intro j present known
    simp only [lookup_fields, present, Option.getD_some, Option.some_inj] at expiry
    cases time : p.expiresAt with
    | none =>
      rw [time] at expiry
      exact absurd expiry.symm known
    | some t =>
      rw [time] at expiry
      exact congrArg some expiry
  case notBefore =>
    intro j present known
    simpa only [lookup_fields] using kept (by decide) present known
  case proofList =>
    intro j present known
    simpa only [lookup_fields] using kept (by decide) present known
  case unknown => exact unknown
  case attenuations =>
    intro j present known
    have listed := kept (by decide) present known
    simp only [lookup_fields, Option.map_eq_some_iff] at listed
    obtain ⟨as, found, same⟩ := listed
    refine ⟨as, as.map (·.toMembers), found, ?_, ?_⟩
    next => rw [← same, List.map_map]; rfl
    next =>
      rw [List.forall₂_map_right_iff, List.forall₂_same]
      exact fun a member => Attenuation.keeps_toMembers (readable.attenuations as found a member)

/-- The texts of the parties stand in the text that a payload was read from. -/
theorem Payload.parties_of_parse {s : Bytes} {p : Payload} (parsed : parse s = .ok p) :
    ∃ m : Members, Json.parse s = .ok (.ofMembers m) ∧
      m.find? "iss" = some (.string p.issuer.toString) ∧
      m.find? "aud" = some (.string p.audience.toString) := by
  have ⟨j, value, m, d, same, all, made⟩ := mirrors_reader.parse parsed
  rw [same] at value
  have ⟨_, issuer, audience, _⟩ := lookup_of_finish made (readable_of_parse parsed).facts
  simp only [lookup_fields, ← all] at issuer audience
  exact ⟨m, value, issuer.symm, audience.symm⟩

/-- Nothing that stands in a text is lost to a header or a payload that is read from it. -/
theorem parse_keeps (s : Bytes) :
    (∀ h, Header.parse s = .ok h → ∃ m, Json.parse s = .ok (.ofMembers m) ∧ h.Keeps m) ∧
      ∀ p, Payload.parse s = .ok p → ∃ m, Json.parse s = .ok (.ofMembers m) ∧ p.Keeps m :=
  ⟨fun _ parsed => Header.keeps_of_parse parsed, fun _ parsed => Payload.keeps_of_parse parsed⟩

theorem parse_keeps_of_nulls :
    let s := utf8 ("\x7b\"alg\":\"EdDSA\",\"typ\":\"JWT\",\"ucv\":null,\"iss\":\"did:a:b\"," ++
      "\"aud\":\"did:a:c\",\"nbf\":7,\"prf\":[\"x\"],\"fct\":null,\"z\":1,\"z\":[2]," ++
      "\"att\":[\x7b\"with\":\"r\",\"can\":\"w\",\"n\":null\x7d]\x7d")
    ∃ h p, Header.parse s = .ok h ∧ Payload.parse s = .ok p ∧
      (∃ m, Json.parse s = .ok (.ofMembers m) ∧ h.Keeps m) ∧
      ∃ m, Json.parse s = .ok (.ofMembers m) ∧ p.Keeps m := by
  intro s
  have both : (Header.parse s).toOption.isSome ∧ (Payload.parse s).toOption.isSome := by
    decide +kernel
  have ⟨h, header⟩ := Option.isSome_iff_exists.mp both.1
  have ⟨p, payload⟩ := Option.isSome_iff_exists.mp both.2
  have header := eq_ok_of_toOption header
  have payload := eq_ok_of_toOption payload
  exact ⟨h, p, header, payload, (parse_keeps s).1 h header, (parse_keeps s).2 p payload⟩

end Ucan
