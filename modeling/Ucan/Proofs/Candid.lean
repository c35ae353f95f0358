import Ucan.Proofs.Delegation.Extension
import Ucan.Proofs.Json.TakesAll
import Ucan.Proofs.SignedBytes

/-!
What is enforced of a token that was made from its parts is what its text says, as long as none of
the members that stand beside the fields has the name of one that is enforced.
-/

set_option autoImplicit false

namespace Ucan

open Json

/-! ## What the readers take -/

theorem CapabilityMap.takesAll_reader (depth : Nat) : TakesAll (CapabilityMap.reader depth) :=
  takesAll_dict (takesAll_within (fun depth => takesAll_dict (takesAll_within (fun depth =>
    takesAll_list (takesAll_within takesAll_memberDict depth)) depth)) depth)

theorem Attenuation.takesAll_member {depth : Nat} {d : Draft} {name : String} {read : Reader Draft}
    (found : Draft.member depth d name = .ok read) : TakesAll read := by
  unfold Draft.member at found
  split at found
  · exact (takesAll_string.map _).once found
  split at found
  · exact (takesAll_string.map _).once found
  · cases found
    exact (takesAll_value depth).map _

theorem Attenuation.takesAll_reader (depth : Nat) : TakesAll (Attenuation.reader depth) := by
  refine (takesAll_object fun m inside state name read found => ?_).andThen _
  cases depth with
  | zero => cases inside
  | succ depth =>
    cases inside
    exact takesAll_member found

theorem Header.takesAll_member {depth : Nat} {d : Draft} {name : String} {read : Reader Draft}
    (found : Draft.member depth d name = .ok read) :
    TakesAll read ∧ Yields read fun next => name ≠ "alg" → next.algorithm = d.algorithm := by
  unfold Draft.member at found
  split at found
  next algorithm => exact takesAll_once takesAll_string found fun _ => absurd algorithm
  split at found
  · exact takesAll_once takesAll_string found fun _ _ => rfl
  split at found
  · exact takesAll_once takesAll_string.option found fun _ _ => rfl
  · cases found
    exact ⟨(takesAll_value depth).map _, (yields_true _).map fun _ _ _ => rfl⟩

/-- What a payload allows and what is enforced of it is as it was, but for the field of the name. -/
structure Payload.Draft.Keeps (d : Draft) (name : String) (next : Draft) : Prop where
  issuer : name ≠ "iss" → next.issuer = d.issuer
  audience : name ≠ "aud" → next.audience = d.audience
  expiresAt : name ≠ "exp" → next.expiresAt = d.expiresAt
  notBefore : name ≠ "nbf" → next.notBefore = d.notBefore
  capabilityMap : name ≠ "cap" → next.capabilityMap = d.capabilityMap
  attenuations : name ≠ "att" → next.attenuations = d.attenuations
  proofList : name ≠ "prf" → next.proofList = d.proofList

theorem Payload.takesAll_member {depth : Nat} {d : Draft} {name : String} {read : Reader Draft}
    (found : Draft.member depth d name = .ok read) :
    TakesAll read ∧ Yields read (d.Keeps name) := by
  have did : TakesAll Payload.did := takesAll_textOf _ _
  have attenuations := takesAll_list (takesAll_within Attenuation.takesAll_reader depth)
  have proofs := takesAll_list (takesAll_within (fun _ => takesAll_string) depth)
  have kept : d.Keeps name d := by constructor <;> exact fun _ => rfl
  unfold Draft.member at found
  -- Of its own field the member may bring any value; all others are left as they are.
  by_cases version : name = "ucv"
  · rw [if_pos version] at found
    exact takesAll_once takesAll_string.option found fun _ => { kept with }
  rw [if_neg version] at found
  by_cases issuer : name = "iss"
  · rw [if_pos issuer] at found
    exact takesAll_once did found fun _ => { kept with issuer := absurd issuer }
  rw [if_neg issuer] at found
  by_cases audience : name = "aud"
  · rw [if_pos audience] at found
    exact takesAll_once did found fun _ => { kept with audience := absurd audience }
  rw [if_neg audience] at found
  by_cases expiry : name = "exp"
  · rw [if_pos expiry] at found
    exact takesAll_once takesAll_uint64.option found fun _ =>
      { kept with expiresAt := absurd expiry }
  rw [if_neg expiry] at found
  by_cases start : name = "nbf"
  · rw [if_pos start] at found
    exact takesAll_once takesAll_uint64.option found fun _ =>
      { kept with notBefore := absurd start }
  rw [if_neg start] at found
  by_cases nonce : name = "nnc"
  · rw [if_pos nonce] at found
    exact takesAll_once takesAll_string.option found fun _ => { kept with }
  rw [if_neg nonce] at found
  by_cases facts : name = "fct"
  · rw [if_pos facts] at found
    exact takesAll_once (takesAll_value depth).option found fun _ => { kept with }
  rw [if_neg facts] at found
  by_cases map : name = "cap"
  · rw [if_pos map] at found
    exact takesAll_once (CapabilityMap.takesAll_reader depth).option found fun _ =>
      { kept with capabilityMap := absurd map }
  rw [if_neg map] at found
  by_cases listed : name = "att"
  · rw [if_pos listed] at found
    exact takesAll_once attenuations.option found fun _ =>
      { kept with attenuations := absurd listed }
  rw [if_neg listed] at found
  by_cases proof : name = "prf"
  · rw [if_pos proof] at found
    exact takesAll_once proofs.option found fun _ => { kept with proofList := absurd proof }
  rw [if_neg proof] at found
  cases found
  exact ⟨(takesAll_value depth).map _, (yields_true _).map fun _ _ => { kept with }⟩

/-! ## What is read of what was written -/

theorem lookup_record {fields : List (String × Json)} {extra : Members} {name : String}
    (distinct : (fields.map (·.1)).Nodup) (absent : ∀ e ∈ extra.entries, e.1 ≠ name) :
    (sortMembers ((Dict.ofList fields).insertAll extra.entries).entries).lookup name =
      (fields.lookup name).map sort := by
  have missing : extra.entries.lookup name = none := by
    rw [lookup_eq_none_iff, List.mem_map]
    rintro ⟨e, member, same⟩
    exact absent e member same
  rw [lookup_sortMembers (Dict.sorted _).nodup, ← Dict.find?,
    Dict.find?_insertAll _ extra.sorted.nodup, missing, Option.none_or, Dict.find?_ofList distinct]

theorem Header.algorithm_of_parse {h g : Header} (plain : ∀ e ∈ h.extra.entries, e.1 ≠ "alg")
    (parsed : parse h.toJson.canonical = .ok g) : g.algorithm = h.algorithm := by
  obtain ⟨member, inside, members, last, same, passes, made⟩ :=
    passes_of_parse (j := h.toJson.sort) (fun member inside state name read found => by
      cases inside
      exact (takesAll_member found).1) parsed
  cases inside
  cases same
  have written : (sortMembers h.toMembers.entries).lookup "alg" = some (.string h.algorithm) :=
    (lookup_record ((names_fields h).nodup (by decide)) plain).trans (by
      rw [h.lookup_fields.1]
      rfl)
  -- The header is a container itself, so of the 127 levels 126 are left inside it.
  have keeps : ∀ other, other ≠ "alg" → ∀ state read,
      Draft.member 126 state other = .ok read →
        Yields read fun next => next.algorithm = state.algorithm :=
    fun other apart state read found => (takesAll_member found).2.imp fun _ kept => kept apart
  have known : last.algorithm = some h.algorithm := by
    refine passes.get_of_lookup (sorted_sortMembers _).nodup keeps (p := (· = _)) written ?_
    exact fun state read found =>
      yieldsOf_once found (reads_string _).yieldsOf fun _ same => congrArg some same
  simp only [Draft.finish, bind_eq_ok, required_eq_ok_iff] at made
  obtain ⟨algorithm, read, tokenType, -, made⟩ := made
  cases made
  exact Option.some.inj (read.symm.trans known)

namespace Payload

/-- The names of the members that are enforced. -/
def enforcedNames : List String := ["iss", "aud", "exp", "nbf", "prf"]

theorem yieldsOf_did {d : Did} (regular : d.Regular) :
    YieldsOf Payload.did (.string d.toString) (· = d) := by
  refine (reads_string _).yieldsOf.andThen fun text e same made => ?_
  subst same
  split at made
  next read =>
    cases made
    exact regular.eq_of_parse read
  · cases made

theorem sort_time (time : Option UInt64) :
    (time.elim .null ofTime).sort = time.elim .null ofTime := by
  cases time <;> rfl

theorem sort_strings (texts : List String) :
    (Json.array (texts.map .string)).sort = .array (texts.map .string) := by
  rw [sort, sortElements_eq_map, List.map_map]
  rfl

section

variable {τ : Type} {name : String} {members : List (String × Json)} {last : Draft}
  (passes : Passes (Draft.member 126) {} members last) (distinct : (members.map (·.1)).Nodup)
include passes distinct

theorem get_eq {get : Draft → τ} {j : Json} {a : τ}
    (keeps : ∀ d e other, d.Keeps other e → other ≠ name → get e = get d)
    (written : members.lookup name = some j)
    (own : ∀ state read, Draft.member 126 state name = .ok read →
      YieldsOf read j fun next => get next = a) : get last = a := by
  refine passes.get_of_lookup distinct (fun other apart state _ found => ?_) written (p := (· = a)) own
  exact (takesAll_member found).2.imp fun next kept => keeps state next other kept apart

/-- A field without a member stays as it was at the start. -/
theorem join_eq {get : Draft → Option (Option τ)} {toJson : τ → Json} {o : Option τ}
    (keeps : ∀ d e other, d.Keeps other e → other ≠ name → get e = get d) (fresh : get {} = none)
    (written : members.lookup name = o.map toJson)
    (own : ∀ a ∈ o, ∀ state read, Draft.member 126 state name = .ok read →
      YieldsOf read (toJson a) fun next => get next = some (some a)) : (get last).join = o := by
  cases o with
  | none =>
    have kept : get last = get {} := by
      refine passes.get_of_absent (fun other apart state _ found => ?_) written
      exact (takesAll_member found).2.imp fun next kept => keeps state next other kept apart
    rw [kept, fresh]
    rfl
  | some a =>
    rw [get_eq passes distinct keeps written (own a rfl)]
    rfl

end

section

variable {p : Payload} {last : Draft} (plain : ∀ e ∈ p.extra.entries, e.1 ∉ enforcedNames)
include plain

theorem lookup_written {name : String} (enforced : name ∈ enforcedNames) :
    (sortMembers p.toMembers.entries).lookup name = (p.fields.lookup name).map sort :=
  lookup_record ((names_fields p).nodup (by decide)) fun e member same =>
    plain e member (same ▸ enforced)

variable (passes : Passes (Draft.member 126) {} (sortMembers p.toMembers.entries) last)
include passes

theorem issuer_of_passes (regular : p.issuer.Regular) : last.issuer = some p.issuer := by
  have written := lookup_written plain (by decide : "iss" ∈ enforcedNames)
  rw [p.lookup_fields.2.1] at written
  apply get_eq passes (sorted_sortMembers _).nodup (fun _ _ _ kept => kept.issuer) written
  exact fun state read found =>
    yieldsOf_once found (yieldsOf_did regular) fun _ same => congrArg some same

theorem audience_of_passes (regular : p.audience.Regular) : last.audience = some p.audience := by
  have written := lookup_written plain (by decide : "aud" ∈ enforcedNames)
  rw [p.lookup_fields.2.2.1] at written
  apply get_eq passes (sorted_sortMembers _).nodup (fun _ _ _ kept => kept.audience) written
  exact fun state read found =>
    yieldsOf_once found (yieldsOf_did regular) fun _ same => congrArg some same

theorem expiresAt_of_passes : last.expiresAt = some p.expiresAt := by
  have written := lookup_written plain (by decide : "exp" ∈ enforcedNames)
  rw [p.lookup_fields.2.2.2.1, Option.map_some, sort_time] at written
  apply get_eq passes (sorted_sortMembers _).nodup (fun _ _ _ kept => kept.expiresAt) written
  exact fun state read found =>
    yieldsOf_once found (reads_time _).yieldsOf fun _ same => congrArg some same

theorem notBefore_of_passes : last.notBefore.join = p.notBefore := by
  have written := lookup_written plain (by decide : "nbf" ∈ enforcedNames)
  rw [p.lookup_fields.2.2.2.2.1, Option.map_map] at written
  apply join_eq passes (sorted_sortMembers _).nodup (fun _ _ _ kept => kept.notBefore) rfl written
  exact fun time _ state read found =>
    yieldsOf_once found (reads_time (some time)).yieldsOf fun _ same => congrArg some same

theorem proofList_of_passes : last.proofList.join = p.proofList := by
  have written := lookup_written plain (by decide : "prf" ∈ enforcedNames)
  rw [p.lookup_fields.2.2.2.2.2.2.2.2.2, Option.map_map] at written
  apply join_eq passes (sorted_sortMembers _).nodup (fun _ _ _ kept => kept.proofList) rfl written
  intro proofs _ state read found
  have strings : Reads (Reader.option (Reader.list (some Reader.string)))
      (.array (proofs.map .string)) (some proofs) :=
    reads_option_some nofun (reads_list fun s _ => reads_string s)
  rw [Function.comp_apply, sort_strings]
  exact yieldsOf_once found strings.yieldsOf fun _ same => congrArg some same

end

/-- The text of a payload is read member by member, in the order in which they are written. -/
theorem exists_passes {p q : Payload} (parsed : parse p.toJson.canonical = .ok q) :
    ∃ last, Passes (Draft.member 126) {} (sortMembers p.toMembers.entries) last ∧
      last.finish = .ok q := by
  obtain ⟨member, inside, members, last, same, passes, made⟩ :=
    passes_of_parse (j := p.toJson.sort) (fun member inside state name read found => by
      cases inside
      exact (takesAll_member found).1) parsed
  cases inside
  cases same
  exact ⟨last, passes, made⟩

theorem terms_of_parse {p q : Payload} (plain : ∀ e ∈ p.extra.entries, e.1 ∉ enforcedNames)
    (regular : p.Regular) (parsed : parse p.toJson.canonical = .ok q) :
    q.issuer = p.issuer ∧ q.audience = p.audience ∧ q.expiresAt = p.expiresAt ∧
      q.notBefore = p.notBefore ∧ q.proofList = p.proofList := by
  obtain ⟨last, passes, made⟩ := exists_passes parsed
  have issuer := issuer_of_passes plain passes regular.1
  have audience := audience_of_passes plain passes regular.2
  simp only [Draft.finish, issuer, audience, expiresAt_of_passes plain passes,
    notBefore_of_passes plain passes, proofList_of_passes plain passes, required, bind,
    Except.bind] at made
  cases made
  exact ⟨rfl, rfl, rfl, rfl, rfl⟩

end Payload

/-! ## Tokens of the same terms -/

namespace ProofStore

open Delegation

end ProofStore

namespace Token

theorem SameTerms.sign {t twin : Token} (same : t.SameTerms twin) (signer : Signer) :
    (twin.sign signer).map encode = (t.sign signer).map encode := by
  simp only [Token.sign, signature, same.wire, same.issuer, same.algorithm]
  split
  · rfl
  split
  · rfl
  split
  · rfl
  · cases signer.sign twin.wire.signedBytes <;> rfl

variable {t : Token}

/-- The text has the bytes of the token, so the two parts are read from what it was written as. -/
theorem Canonical.parses_of_decode {limit : Nat} {d : Token} (canonical : t.Canonical)
    (read : decodeWithin limit t.encode = .ok d) :
    t.wire = d.wire ∧ Header.parse t.header.toJson.canonical = .ok d.header ∧
      Payload.parse t.payload.toJson.canonical = .ok d.payload := by
  have wire : t.wire = d.wire := by
    have found := wire_of_decodeWithin read
    rw [encode, Wire.utf8_text, Wire.ofBytes_bytes canonical.proper] at found
    exact Except.ok.inj found
  obtain ⟨-, headed, loaded, -⟩ := ofWire_eq_ok_iff.mp (ofWire_of_decodeWithin read)
  rw [← wire, canonical.header] at headed
  rw [← wire, canonical.payload] at loaded
  exact ⟨wire, headed, loaded⟩

theorem Canonical.candid (canonical : t.Canonical)
    (header : ∀ e ∈ t.header.extra.entries, e.1 ≠ "alg")
    (payload : ∀ e ∈ t.payload.extra.entries, e.1 ∉ Payload.enforcedNames)
    (regular : t.payload.Regular) : t.Candid := by
  intro limit d read
  obtain ⟨wire, headed, loaded⟩ := canonical.parses_of_decode read
  obtain ⟨issuer, audience, expiresAt, notBefore, proofs⟩ :=
    Payload.terms_of_parse payload regular loaded
  exact ⟨wire, (Header.algorithm_of_parse header headed).symm, issuer.symm, audience.symm,
    expiresAt.symm, notBefore.symm, (congrArg (·.getD []) proofs).symm⟩

/-- No member that was read stands beside a field of its name. -/
theorem candid_ofParts_of_parse {headerText payloadText : Bytes} {h : Header} {p : Payload}
    (headed : Header.parse headerText = .ok h) (loaded : Payload.parse payloadText = .ok p) :
    (ofParts h p).Candid := by
  have header := (Header.readable_of_parse headed).apart
  have payload := Payload.readable_of_parse loaded
  apply (canonical_ofParts h p).candid
  · exact fun e member same => header e member (same ▸ by decide)
  · exact fun e member enforced => payload.apart e member
      ((by decide : Payload.enforcedNames ⊆ Payload.fieldNames) enforced)
  · exact ⟨Did.regular_of_parse payload.issuer, Did.regular_of_parse payload.audience⟩

theorem candid_of_build {b : Builder} {now : UInt64} (built : b.build now = .ok t)
    (issuer : ∀ did ∈ b.issuer, did.Readable) (audience : ∀ did ∈ b.audience, did.Readable) :
    t.Candid := by
  obtain ⟨i, _, a, _, issued, -, addressed, -, rfl⟩ := Builder.build_eq_ok_iff.mp built
  apply (canonical_ofParts _ _).candid
  · exact nofun
  · exact nofun
  · exact ⟨Did.regular_of_parse (issuer i issued), Did.regular_of_parse (audience a addressed)⟩

end Token

end Ucan
