import Ucan.Proofs.Json.Alike
import Ucan.Proofs.Payload

/-!
Headers and payloads that say the same up to a relation between JSON values, and that this shows in
the values they are written as.
-/

set_option autoImplicit false

namespace Ucan

open Json

section

variable {α β : Type} {S : α → α → Prop} {R : Json → Json → Prop}

namespace Dict

/-- Every name has related values, or none. -/
def Rel (S : α → α → Prop) (d e : Dict α) : Prop :=
  ∀ name, Option.Rel S (d.find? name) (e.find? name)

theorem rel_eq_iff {d e : Dict α} : d.Rel Eq e ↔ d = e := by
  simp only [Rel, Json.rel_eq_iff]
  exact ⟨ext_find?, fun same name => same ▸ rfl⟩

theorem lookup_map (entries : List (String × α)) (f : α → β) (name : String) :
    (entries.map fun e => (e.1, f e.2)).lookup name = (entries.lookup name).map f := by
  induction entries with
  | nil => rfl
  | cons e rest ih =>
    rw [List.map_cons, lookup_cons_eq, lookup_cons_eq, ih]
    split <;> rfl

theorem rel_eq : Dict.Rel (Eq : α → α → Prop) = Eq := by
  funext d e
  exact propext rel_eq_iff

end Dict

theorem rel_map_iff {f g : α → Json} {o other : Option α}
    (each : ∀ a ∈ o, ∀ b ∈ other, R (f a) (g b) ↔ S a b) :
    Option.Rel R (o.map f) (other.map g) ↔ Option.Rel S o other := by
  cases o <;> cases other
  case some.some a b => simp [each a rfl b rfl]
  all_goals simp

theorem lookup_optionalMember (name found : String) (toJson : α → Json) (o : Option α) :
    (optionalMember name toJson o).lookup found = if found = name then o.map toJson else none := by
  cases o with
  | none => simp [optionalMember]
  | some a => simp [optionalMember, lookup_cons_eq]

theorem find?_record {fields : List (String × Json)} {extra : Members} {names : List String}
    (nodup : names.Nodup) (own : (fields.map (·.1)).Sublist names)
    (apart : ∀ e ∈ extra.entries, e.1 ∉ names) (name : String) :
    ((Dict.ofList fields).insertAll extra.entries).find? name =
      if name ∈ names then fields.lookup name else extra.find? name := by
  rw [Dict.find?_insertAll _ extra.sorted.nodup, Dict.find?_ofList (own.nodup nodup), ← Dict.find?]
  split
  next field => rw [Dict.find?_of_apart apart field, Option.none_or]
  next other =>
    rw [lookup_eq_none_iff.mpr fun member => other (own.subset member), Option.or_none]

/-- The members of a record are related when its fields are, and the other members. -/
theorem rel_record {fields others : List (String × Json)} {extra otherExtra : Members}
    {names : List String} (nodup : names.Nodup) (own : (fields.map (·.1)).Sublist names)
    (otherOwn : (others.map (·.1)).Sublist names) (apart : ∀ e ∈ extra.entries, e.1 ∉ names)
    (otherApart : ∀ e ∈ otherExtra.entries, e.1 ∉ names) :
    ((Dict.ofList fields).insertAll extra.entries).Rel R
        ((Dict.ofList others).insertAll otherExtra.entries) ↔
      (∀ name ∈ names, Option.Rel R (fields.lookup name) (others.lookup name)) ∧
        extra.Rel R otherExtra := by
  simp only [Dict.Rel, find?_record nodup own apart, find?_record nodup otherOwn otherApart]
  constructor
  · intro all
    constructor
    · intro name field
      simpa only [if_pos field] using all name
    · intro name
      by_cases field : name ∈ names
      · rw [Dict.find?_of_apart apart field, Dict.find?_of_apart otherApart field]
        exact .none
      · simpa only [if_neg field] using all name
  · rintro ⟨each, rest⟩ name
    split
    next field => exact each name field
    next => exact rest name

/-! ## Values that fields are written as -/

namespace Json.Structural

variable (structural : Structural R)
include structural

theorem ofMembers {members others : Members} :
    R (Json.ofMembers members) (Json.ofMembers others) ↔ members.Rel R others :=
  structural.object members.sorted others.sorted

theorem string {s t : String} : R (.string s) (.string t) ↔ s = t := by
  rw [structural.flat rfl rfl, Json.string.injEq]

theorem optionString {s t : Option String} :
    Option.Rel R (s.map .string) (t.map .string) ↔ s = t := by
  rw [rel_map_iff (S := Eq) fun _ _ _ _ => structural.string, rel_eq_iff]

theorem time {t u : UInt64} : R (Payload.ofTime t) (Payload.ofTime u) ↔ t = u := by
  rw [structural.flat rfl rfl]
  constructor
  · intro same
    injection same with same
    injection same with same
    exact UInt64.toNat_inj.mp (Int.natCast_inj.mp same)
  · exact congrArg _

theorem optionTime {t u : Option UInt64} :
    Option.Rel R (t.map Payload.ofTime) (u.map Payload.ofTime) ↔ t = u := by
  rw [rel_map_iff (S := Eq) fun _ _ _ _ => structural.time, rel_eq_iff]

theorem timeOrNull {t u : Option UInt64} :
    R (t.elim .null Payload.ofTime) (u.elim .null Payload.ofTime) ↔ t = u := by
  cases t <;> cases u
  case some.some t u => simpa using structural.time
  case none.none => exact iff_of_true ((structural.flat rfl rfl).mpr rfl) rfl
  all_goals exact iff_of_false (fun related => nomatch (structural.flat rfl rfl).mp related) nofun

end Json.Structural

/-! ## Headers -/

/-- The headers say the same, up to the relation. -/
structure Header.Related (R : Json → Json → Prop) (h other : Header) : Prop where
  algorithm : h.algorithm = other.algorithm
  tokenType : h.tokenType = other.tokenType
  version : h.version = other.version
  extra : h.extra.Rel R other.extra

theorem Header.lookup_fields (h : Header) :
    h.fields.lookup "alg" = some (.string h.algorithm) ∧
      h.fields.lookup "typ" = some (.string h.tokenType) ∧
      h.fields.lookup "ucv" = h.version.map .string := by
  simp [fields, lookup_cons_eq, lookup_optionalMember]

theorem Header.related_toJson {h other : Header} (structural : Structural R)
    (apart : ∀ e ∈ h.extra.entries, e.1 ∉ fieldNames)
    (otherApart : ∀ e ∈ other.extra.entries, e.1 ∉ fieldNames) :
    R h.toJson other.toJson ↔ h.Related R other := by
  have record : h.toMembers.Rel R other.toMembers ↔
      (∀ name ∈ fieldNames, Option.Rel R (h.fields.lookup name) (other.fields.lookup name)) ∧
        h.extra.Rel R other.extra :=
    rel_record (by decide) (names_fields h) (names_fields other) apart otherApart
  rw [toJson, toJson, structural.ofMembers, record]
  simp only [fieldNames, List.forall_mem_cons, h.lookup_fields, other.lookup_fields,
    Option.rel_some_some, structural.string, structural.optionString, List.not_mem_nil,
    false_imp_iff, implies_true, and_true]
  constructor
  · rintro ⟨⟨algorithm, tokenType, version⟩, extra⟩
    exact ⟨algorithm, tokenType, version, extra⟩
  · rintro ⟨algorithm, tokenType, version, extra⟩
    exact ⟨⟨algorithm, tokenType, version⟩, extra⟩

theorem Header.Related.eq {h other : Header} (related : h.Related Eq other) : h = other := by
  obtain ⟨algorithm, tokenType, version, extra⟩ := h
  obtain ⟨rfl, rfl, rfl, same⟩ := related
  cases Dict.rel_eq_iff.mp same
  rfl

/-! ## Capabilities -/

/-- The same abilities over the same resources, with caveats that are related one by one. -/
def CapabilityMap.Related (R : Json → Json → Prop) (map other : CapabilityMap) : Prop :=
  map.Rel (Dict.Rel (List.Forall₂ (Dict.Rel R))) other

theorem Json.Structural.map (structural : Structural R) {S : α → α → Prop} {f : α → Json}
    (each : ∀ a b, R (f a) (f b) ↔ S a b) {d e : Dict α} :
    R (.object (d.entries.map fun m => (m.1, f m.2))) (.object (e.entries.map fun m => (m.1, f m.2))) ↔
      d.Rel S e := by
  rw [structural.object (d.sorted_map _) (e.sorted_map _)]
  simp only [Dict.lookup_map, rel_map_iff fun a _ b _ => each a b]
  rfl

theorem Json.Structural.list (structural : Structural R) {S : α → α → Prop} {f : α → Json}
    {as bs : List α} (each : ∀ a ∈ as, ∀ b ∈ bs, R (f a) (f b) ↔ S a b) :
    R (.array (as.map f)) (.array (bs.map f)) ↔ List.Forall₂ S as bs := by
  rw [structural.array, List.forall₂_map_left_iff, List.forall₂_map_right_iff]
  exact forall₂_iff_of_mem each

theorem CapabilityMap.related_toJson {map other : CapabilityMap} (structural : Structural R) :
    R map.toJson other.toJson ↔ map.Related R other := by
  rw [toJson_eq, toJson_eq]
  apply structural.map (f := fun abilities : Dict (List Members) =>
    .object (abilities.entries.map fun f => (f.1, .array (f.2.map Json.ofMembers))))
  intro abilities others
  apply structural.map (f := fun caveats : List Members => .array (caveats.map Json.ofMembers))
  intro caveats others
  apply structural.list
  exact fun _ _ _ _ => structural.ofMembers

theorem CapabilityMap.related_eq : CapabilityMap.Related Eq = Eq := by
  funext map other
  rw [Related, Dict.rel_eq, List.forall₂_eq_eq_eq, Dict.rel_eq, Dict.rel_eq]

structure Attenuation.Related (R : Json → Json → Prop) (a b : Attenuation) : Prop where
  resource : a.resource = b.resource
  ability : a.ability = b.ability
  extra : a.extra.Rel R b.extra

theorem Attenuation.related_toMembers {a b : Attenuation} (structural : Structural R)
    (readable : a.Readable) (otherReadable : b.Readable) :
    R (Json.ofMembers a.toMembers) (Json.ofMembers b.toMembers) ↔ a.Related R b := by
  let own (a : Attenuation) := [("with", Json.string a.resource), ("can", Json.string a.ability)]
  have record : a.toMembers.Rel R b.toMembers ↔
      (∀ name ∈ fieldNames, Option.Rel R ((own a).lookup name) ((own b).lookup name)) ∧
        a.extra.Rel R b.extra :=
    rel_record (by decide) (.refl _) (.refl _) readable otherReadable
  have lookup_own (a : Attenuation) : (own a).lookup "with" = some (.string a.resource) ∧
      (own a).lookup "can" = some (.string a.ability) := by
    simp [own, lookup_cons_eq]
  rw [structural.ofMembers, record]
  simp only [fieldNames, List.forall_mem_cons, lookup_own, Option.rel_some_some, structural.string,
    List.not_mem_nil, false_imp_iff, implies_true, and_true]
  constructor
  · rintro ⟨⟨resource, ability⟩, extra⟩
    exact ⟨resource, ability, extra⟩
  · rintro ⟨resource, ability, extra⟩
    exact ⟨⟨resource, ability⟩, extra⟩

theorem Attenuation.related_eq : Attenuation.Related Eq = Eq := by
  funext a b
  apply propext
  constructor
  · obtain ⟨resource, ability, extra⟩ := a
    rintro ⟨rfl, rfl, same⟩
    cases Dict.rel_eq_iff.mp same
    rfl
  · rintro rfl
    exact ⟨rfl, rfl, Dict.rel_eq_iff.mpr rfl⟩

/-! ## Payloads -/

/-- The payloads say the same, up to the relation. Identifiers are compared as they are written. -/
structure Payload.Related (R : Json → Json → Prop) (p other : Payload) : Prop where
  version : p.version = other.version
  issuer : p.issuer.toString = other.issuer.toString
  audience : p.audience.toString = other.audience.toString
  expiresAt : p.expiresAt = other.expiresAt
  notBefore : p.notBefore = other.notBefore
  nonce : p.nonce = other.nonce
  facts : Option.Rel R p.facts other.facts
  capabilityMap : Option.Rel (CapabilityMap.Related R) p.capabilityMap other.capabilityMap
  attenuations :
    Option.Rel (List.Forall₂ (Attenuation.Related R)) p.attenuations other.attenuations
  proofList : p.proofList = other.proofList
  extra : p.extra.Rel R other.extra

theorem Payload.lookup_fields (p : Payload) :
    p.fields.lookup "ucv" = p.version.map .string ∧
      p.fields.lookup "iss" = some (.string p.issuer.toString) ∧
      p.fields.lookup "aud" = some (.string p.audience.toString) ∧
      p.fields.lookup "exp" = some (p.expiresAt.elim .null ofTime) ∧
      p.fields.lookup "nbf" = p.notBefore.map ofTime ∧
      p.fields.lookup "nnc" = p.nonce.map .string ∧
      p.fields.lookup "fct" = p.facts ∧
      p.fields.lookup "cap" = p.capabilityMap.map CapabilityMap.toJson ∧
      p.fields.lookup "att" =
        p.attenuations.map (fun as => .array (as.map (Json.ofMembers ·.toMembers))) ∧
      p.fields.lookup "prf" = p.proofList.map (fun ps => .array (ps.map .string)) := by
  simp [fields, List.lookup_append, lookup_cons_eq, lookup_optionalMember]

theorem Payload.related_toJson {p other : Payload} (structural : Structural R)
    (apart : ∀ e ∈ p.extra.entries, e.1 ∉ fieldNames)
    (otherApart : ∀ e ∈ other.extra.entries, e.1 ∉ fieldNames)
    (readable : ∀ as ∈ p.attenuations, ∀ a ∈ as, a.Readable)
    (otherReadable : ∀ as ∈ other.attenuations, ∀ a ∈ as, a.Readable) :
    R p.toJson other.toJson ↔ p.Related R other := by
  have record : p.toMembers.Rel R other.toMembers ↔
      (∀ name ∈ fieldNames, Option.Rel R (p.fields.lookup name) (other.fields.lookup name)) ∧
        p.extra.Rel R other.extra :=
    rel_record (by decide) (names_fields p) (names_fields other) apart otherApart
  have map : Option.Rel R (p.capabilityMap.map CapabilityMap.toJson)
      (other.capabilityMap.map CapabilityMap.toJson) ↔ _ :=
    rel_map_iff fun _ _ _ _ => CapabilityMap.related_toJson structural
  have attenuations : Option.Rel R
      (p.attenuations.map fun as => .array (as.map (Json.ofMembers ·.toMembers)))
      (other.attenuations.map fun as => .array (as.map (Json.ofMembers ·.toMembers))) ↔ _ :=
    rel_map_iff fun as present bs otherPresent => structural.list fun a member b otherMember =>
      Attenuation.related_toMembers structural (readable as present a member)
        (otherReadable bs otherPresent b otherMember)
  have proofs : Option.Rel R (p.proofList.map fun ps => .array (ps.map .string))
      (other.proofList.map fun ps => .array (ps.map .string)) ↔ p.proofList = other.proofList := by
    rw [rel_map_iff (S := Eq), rel_eq_iff]
    intro ps _ qs _
    rw [structural.list (S := Eq) fun _ _ _ _ => structural.string, List.forall₂_eq_eq_eq]
  rw [toJson, toJson, structural.ofMembers, record]
  simp only [fieldNames, List.forall_mem_cons, p.lookup_fields, other.lookup_fields,
    Option.rel_some_some, structural.string, structural.optionString, structural.timeOrNull,
    structural.optionTime, map, attenuations, proofs, List.not_mem_nil, false_imp_iff,
    implies_true, and_true]
  constructor
  · rintro ⟨⟨version, issuer, audience, expiresAt, notBefore, nonce, facts, map, attenuations,
      proofList⟩, extra⟩
    exact ⟨version, issuer, audience, expiresAt, notBefore, nonce, facts, map, attenuations,
      proofList, extra⟩
  · rintro ⟨version, issuer, audience, expiresAt, notBefore, nonce, facts, map, attenuations,
      proofList, extra⟩
    exact ⟨⟨version, issuer, audience, expiresAt, notBefore, nonce, facts, map, attenuations,
      proofList⟩, extra⟩

theorem Payload.Related.eq {p other : Payload} (related : p.Related Eq other)
    (issuer : p.issuer = other.issuer) (audience : p.audience = other.audience) : p = other := by
  obtain ⟨version, -, -, expiresAt, notBefore, nonce, facts, map, attenuations, proofList, extra⟩ :=
    related
  rw [rel_eq_iff] at facts
  rw [CapabilityMap.related_eq, rel_eq_iff] at map
  rw [Attenuation.related_eq, List.forall₂_eq_eq_eq, rel_eq_iff] at attenuations
  rw [Dict.rel_eq_iff] at extra
  cases p
  cases other
  simp_all

end

end Ucan
