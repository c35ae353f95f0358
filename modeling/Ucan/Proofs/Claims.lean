import Ucan.Proofs.Candid
import Ucan.Proofs.Grouping
import Ucan.Proofs.Json.Depth
import Ucan.Proofs.Lossless
import Ucan.Proofs.Settings

/-!
What is claimed while a token is built is what the token lists once it is built, and again once it
is read from its text.
-/

set_option autoImplicit false

namespace Ucan

open Json

/-! ## The payload that is read -/

namespace Payload

theorem yieldsOf_map {map : CapabilityMap} {depth : Nat} (plain : map.toJson.Plain) :
    YieldsOf (Reader.option (CapabilityMap.reader depth)) map.toJson (· = some map) := by
  have faithful : Faithful (fun depth => Reader.option (CapabilityMap.reader depth))
      (ofOption CapabilityMap.toJson) (some map) := fun depth fits integral =>
    reads_option_some nofun (map.faithful depth fits integral)
  exact faithful.yieldsOf (CapabilityMap.mirrors_reader depth).ofOption plain.1 plain.2

/-- Whatever becomes of the other fields, the text of the payload is read with its capabilities. -/
theorem capabilities_of_parse {p q : Payload}
    (apart : ∀ e ∈ p.extra.entries, e.1 ≠ "cap" ∧ e.1 ≠ "att") (noList : p.attenuations = none)
    (plain : ∀ map ∈ p.capabilityMap, map.toJson.Plain)
    (parsed : parse p.toJson.canonical = .ok q) : q.capabilities = p.capabilities := by
  obtain ⟨last, passes, made⟩ := exists_passes parsed
  have distinct : ((sortMembers p.toMembers.entries).map (·.1)).Nodup :=
    (sorted_sortMembers _).nodup
  have fields : (p.fields.map (·.1)).Nodup := (names_fields p).nodup (by decide)
  have map : last.capabilityMap.join = p.capabilityMap := by
    have written := lookup_record fields fun e member => (apart e member).1
    rw [p.lookup_fields.2.2.2.2.2.2.2.1, Option.map_map] at written
    apply join_eq passes distinct (fun _ _ _ kept => kept.capabilityMap) rfl written
    intro map given state read found
    rw [Function.comp_apply, sort_of_ordered (plain map given).1]
    exact yieldsOf_once found (yieldsOf_map (plain map given)) fun _ same => congrArg some same
  have list : last.attenuations.join = p.attenuations := by
    have written := lookup_record fields fun e member => (apart e member).2
    rw [p.lookup_fields.2.2.2.2.2.2.2.2.1, Option.map_map] at written
    apply join_eq passes distinct (fun _ _ _ kept => kept.attenuations) rfl written
    intro list given
    rw [noList] at given
    cases given
  simp only [Draft.finish, bind_eq_ok, required_eq_ok_iff] at made
  obtain ⟨issuer, -, audience, -, made⟩ := made
  cases made
  simp only [capabilities, map, list]

end Payload

namespace Builder

namespace Setting

def isClaim : Setting → Bool
  | .capabilities _ => true
  | _ => false

end Setting

def unclaimed (settings : List Setting) : List Setting := settings.filter fun s => !s.isClaim

variable {b : Builder} {now : UInt64} {t : Token}

theorem setAll_eq (b : Builder) (settings : List Setting) :
    b.setAll settings = { setAll { b with capabilities := [] } (unclaimed settings) with
      capabilities := b.capabilities ++ claimed settings } := by
  induction settings generalizing b with
  | nil => simp [setAll, claimed, unclaimed]
  | cons s rest ih =>
    have later : b.setAll (s :: rest) = (b.set s).setAll rest := rfl
    rw [later, ih]
    cases s <;> simp [claimed, unclaimed, Setting.isClaim, Setting.claims, set, setAll]

theorem ofSettings_eq (settings : List Setting) :
    ofSettings settings =
      { ofSettings (unclaimed settings) with capabilities := claimed settings } :=
  setAll_eq {} settings

theorem build_congr {claims others : List Capability}
    (same : CapabilityMap.ofList claims = CapabilityMap.ofList others) :
    build { b with capabilities := claims } now = build { b with capabilities := others } now := by
  simp only [build, payload, same]
  rfl

theorem capabilities_payload {issuer audience : Did} {expiresAt : Option UInt64} :
    (b.payload issuer audience expiresAt).capabilities =
      (CapabilityMap.ofList b.capabilities).toList :=
  List.append_nil _

theorem capabilities_of_decode {limit : Nat} {read : Token} (built : b.build now = .ok t)
    (plain : ∀ c ∈ b.capabilities, ∀ caveat ∈ c.caveats, (ofMembers caveat).Plain)
    (decoded : Token.decodeWithin limit t.encode = .ok read) :
    read.payload.capabilities = t.payload.capabilities := by
  have parsed := ((canonical_of_build built).parses_of_decode decoded).2.2
  obtain ⟨issuer, _, audience, expiresAt, -, -, -, -, rfl⟩ := build_eq_ok_iff.mp built
  apply Payload.capabilities_of_parse (p := b.payload issuer audience expiresAt) nofun rfl _ parsed
  rintro _ ⟨⟩
  have all := CapabilityMap.forall_ofList plain
  constructor
  next =>
    refine CapabilityMap.ordered_toJson.mpr ?_
    exact fun e outer f inner caveat member => (all e outer f inner caveat member).1
  next =>
    refine CapabilityMap.integral_toJson.mpr ?_
    exact fun e outer f inner caveat member => (all e outer f inner caveat member).2

open Capability in
/-- A token lists what was claimed while it was built, and so does the token that is read of its
text. So only the claims of the same ability over the same resource must stay in their order, and
what a payload lists makes up its map again, without the resources that have no abilities. -/
theorem capabilities_of_build (settings : List Setting) (now : UInt64) (t : Token)
    (built : (ofSettings settings).build now = .ok t) :
    Groups (claimed settings) t.payload.capabilities ∧
    (∀ limit read, Token.decodeWithin limit t.encode = .ok read →
      (∀ c ∈ claimed settings, ∀ caveat ∈ c.caveats, (ofMembers caveat).Plain) →
      Groups (claimed settings) read.payload.capabilities) ∧
    (∀ others, unclaimed others = unclaimed settings →
      (∀ resource ability, claimsOf (claimed others) resource ability =
        claimsOf (claimed settings) resource ability) →
      (ofSettings others).build now = .ok t) ∧
    ∀ p : Payload, p.attenuations = none →
      CapabilityMap.ofList p.capabilities = (p.capabilityMap.getD .empty).withoutEmpty := by
  have grouped : Groups (claimed settings) t.payload.capabilities := by
    obtain ⟨_, _, _, _, -, -, -, -, rfl⟩ := build_eq_ok_iff.mp built
    rw [← capabilities_ofSettings]
    exact capabilities_payload ▸ CapabilityMap.groups_toList_ofList _
  refine ⟨grouped, ?_, ?_, ?_⟩
  next =>
    intro limit read decoded plain
    rw [← capabilities_ofSettings] at plain
    rwa [capabilities_of_decode built plain decoded]
  next =>
    intro others rest same
    rw [← built, ofSettings_eq others, ofSettings_eq settings, rest]
    exact build_congr (CapabilityMap.ofList_congr same)
  next =>
    intro p noList
    have listed : p.capabilities = (p.capabilityMap.getD .empty).toList := by
      rw [Payload.capabilities, noList]
      exact List.append_nil _
    rw [listed, CapabilityMap.ofList_toList]

/-- Claims that were made one at a time, or with others between them, are listed together. -/
theorem capabilities_of_build_of_repeated_claims :
    let first : Members := Dict.empty.insert "a" .null
    let second : Members := Dict.empty.insert "b" (.bool true)
    let settings (claims : List Setting) : List Setting :=
      .issuer (.other "a" "b") .edDsa :: .audience (.other "c" "d") :: claims
    let apart := settings
      [.capabilities [⟨"r", "x", [first]⟩, ⟨"q", "y", []⟩], .capabilities [⟨"r", "x", [second]⟩]]
    let together := settings
      [.capabilities [⟨"q", "y", []⟩], .capabilities [⟨"r", "x", [first]⟩, ⟨"r", "x", [second]⟩]]
    ∃ t read, (ofSettings apart).build 0 = .ok t ∧ (ofSettings together).build 0 = .ok t ∧
      Token.decode t.encode = .ok read ∧
      read.payload.capabilities = [⟨"q", "y", []⟩, ⟨"r", "x", [first, second]⟩] ∧
      Capability.Groups (claimed apart) read.payload.capabilities := by
  intro first second settings apart together
  have built : (ofSettings apart).build 0 = .ok (Token.ofParts (header .edDsa)
    ((ofSettings apart).payload (.other "a" "b") (.other "c" "d") none)) := rfl
  have plain : ∀ c ∈ claimed apart, ∀ caveat ∈ c.caveats, (ofMembers caveat).Plain := by
    have nulls : (ofMembers first).Plain := ⟨by decide, by decide⟩
    have bools : (ofMembers second).Plain := ⟨by decide, by decide⟩
    simp [claimed, Setting.claims, apart, settings, nulls, bools]
  have same (resource ability : String) :
      Capability.claimsOf (claimed together) resource ability =
        Capability.claimsOf (claimed apart) resource ability := by
    by_cases other : Capability.IsOf resource ability ⟨"q", "y", []⟩
    next =>
      obtain ⟨rfl, rfl⟩ := other
      rfl
    next =>
      simp [claimed, Setting.claims, apart, together, settings, Capability.claimsOf_cons, other]
  have listed : (Token.decode (Token.ofParts (header .edDsa) ((ofSettings apart).payload
      (.other "a" "b") (.other "c" "d") none)).encode).toOption.any (·.payload.capabilities =
        [⟨"q", "y", []⟩, ⟨"r", "x", [first, second]⟩]) = true := by decide +kernel
  obtain ⟨read, decoded, found⟩ := exists_ok_of_any listed
  obtain ⟨-, grouped, reordered, -⟩ := capabilities_of_build apart 0 _ built
  exact ⟨_, read, built, reordered together rfl same, decoded, of_decide_eq_true found,
    grouped _ read decoded plain⟩

end Builder

end Ucan
