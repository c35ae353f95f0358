import Ucan.Builder
import Ucan.Proofs.RoundTrip

/-!
What is built is decoded as it was built, unless its facts are null or its payload is nested deeper
than it is read.
-/

set_option autoImplicit false

namespace Ucan

open Json

/-- It was parsed, or it is that of a key pair. -/
def Did.Obtained (d : Did) : Prop :=
  (∃ text, parse text = .ok d) ∨ ∃ k : Keypair, d = k.did

theorem Did.Obtained.readable {d : Did} (obtained : d.Obtained) : d.Readable := by
  rcases obtained with ⟨text, parsed⟩ | ⟨k, rfl⟩
  · exact readable_of_parse parsed
  · exact readable_did k

/-- A value as it is held, with the members of all objects in order and with exact integers only. -/
def Json.Plain (j : Json) : Prop := j.Ordered ∧ j.Integral

namespace Builder

def Setting.Proper : Setting → Prop
  | .issuer did _ | .audience did => did.Obtained
  | .facts j => j.Plain
  | .capabilities list => ∀ c ∈ list, ∀ caveat ∈ c.caveats, (ofMembers caveat).Plain
  | .lifetime _ | .expiration _ | .notBefore _ | .nonce _ | .proof _ => True

structure Sound (b : Builder) : Prop where
  issuer : ∀ did ∈ b.issuer, did.Readable
  audience : ∀ did ∈ b.audience, did.Readable
  facts : ∀ j ∈ b.facts, j.Plain
  capabilities : ∀ c ∈ b.capabilities, ∀ caveat ∈ c.caveats, (ofMembers caveat).Plain

variable {b : Builder} {now : UInt64} {t : Token}

theorem sound_set {s : Setting} (sound : b.Sound) (proper : s.Proper) : (b.set s).Sound := by
  cases s with
  | issuer did algorithm => exact { sound with issuer := by simpa [set] using proper.readable }
  | audience did => exact { sound with audience := by simpa [set] using proper.readable }
  | facts j =>
    have plain : j.Plain := proper
    exact { sound with facts := by simpa [set] using plain }
  | capabilities list =>
    exact { sound with capabilities := List.forall_mem_append.mpr ⟨sound.capabilities, proper⟩ }
  | lifetime | expiration | notBefore | nonce | proof => exact { sound with }

theorem sound_ofSettings {settings : List Setting} (proper : ∀ s ∈ settings, s.Proper) :
    (ofSettings settings).Sound := by
  have from_builder : ∀ b : Builder, b.Sound → (b.setAll settings).Sound := by
    induction settings with
    | nil => exact fun b sound => sound
    | cons s rest ih =>
      rw [List.forall_mem_cons] at proper
      exact fun b sound => ih proper.2 _ (sound_set sound proper.1)
  exact from_builder _ ⟨nofun, nofun, nofun, nofun⟩

theorem required_eq_ok_iff {α : Type} {name : String} {o : Option α} {a : α} :
    required name o = .ok a ↔ o = some a := by
  cases o <;> simp [required]

theorem build_eq_ok_iff :
    b.build now = .ok t ↔ ∃ issuer algorithm audience expiresAt, b.issuer = some issuer ∧
      b.algorithm = some algorithm ∧ b.audience = some audience ∧
      b.expiresAt now = .ok expiresAt ∧
      t = .ofParts (header algorithm) (b.payload issuer audience expiresAt) := by
  simp only [build, bind_eq_ok, required_eq_ok_iff]
  constructor
  · rintro ⟨issuer, issued, algorithm, known, audience, addressed, expiresAt, timed, made⟩
    cases made
    exact ⟨issuer, algorithm, audience, expiresAt, issued, known, addressed, timed, rfl⟩
  · rintro ⟨issuer, algorithm, audience, expiresAt, issued, known, addressed, timed, rfl⟩
    exact ⟨issuer, issued, algorithm, known, audience, addressed, expiresAt, timed, rfl⟩

/-! ## The header -/

theorem readable_header (algorithm : SignatureAlgorithm) : (header algorithm).Readable :=
  ⟨nofun, fits_object.mpr ⟨Dict.sorted _,
    Header.forall_members nofun (fun _ => fits_of_flat rfl) nofun⟩⟩

theorem integral_header (algorithm : SignatureAlgorithm) :
    (header algorithm).toJson.Integral :=
  integral_object.mpr
    (Header.forall_members nofun (fun _ => integral_of_flat rfl trivial) nofun)

/-! ## The payload -/

variable {issuer audience : Did} {expiresAt : Option UInt64}

theorem forall_payload {P : Json → Prop}
    (leaf : ∀ j : Json, j.nesting = 0 → j.HasExactNumber → P j) (facts : ∀ j ∈ b.facts, P j)
    (map : P (CapabilityMap.ofList b.capabilities).toJson)
    (strings : ∀ texts : List String, P (.array (texts.map .string))) :
    ∀ e ∈ (b.payload issuer audience expiresAt).toMembers.entries, P e.2 := by
  refine Payload.forall_members nofun leaf facts ?_ nofun (fun texts _ => strings texts) nofun
  rintro _ ⟨⟩
  exact map

theorem proofs_payload (b : Builder) (issuer audience : Did) (expiresAt : Option UInt64) :
    (b.payload issuer audience expiresAt).proofs = b.proofs := by
  change (if b.proofs.isEmpty then none else some b.proofs).getD [] = b.proofs
  cases b.proofs <;> rfl

theorem ordered_payload (sound : b.Sound) :
    (b.payload issuer audience expiresAt).toJson.Ordered := by
  refine ordered_object.mpr ⟨Dict.sorted _, forall_payload ?_ ?_ ?_ ?_⟩
  · exact fun j flat _ => ordered_of_flat flat
  · exact fun j present => (sound.facts j present).1
  · exact CapabilityMap.ordered_toJson.mpr (CapabilityMap.forall_ofList
      fun c claimed caveat member => (sound.capabilities c claimed caveat member).1)
  · intro texts
    rw [ordered_array, List.forall_mem_map]
    exact fun s _ => ordered_of_flat rfl

theorem integral_payload (sound : b.Sound) :
    (b.payload issuer audience expiresAt).toJson.Integral := by
  refine integral_object.mpr (forall_payload ?_ ?_ ?_ ?_)
  · exact fun j flat exact => integral_of_flat flat exact
  · exact fun j present => (sound.facts j present).2
  · exact CapabilityMap.integral_toJson.mpr (CapabilityMap.forall_ofList
      fun c claimed caveat member => (sound.capabilities c claimed caveat member).2)
  · intro texts
    rw [integral_array, List.forall_mem_map]
    exact fun s _ => integral_of_flat rfl trivial

theorem readable_payload_iff (sound : b.Sound) (issued : issuer.Readable)
    (addressed : audience.Readable) :
    (b.payload issuer audience expiresAt).Readable ↔ b.facts ≠ some .null ∧
      (b.payload issuer audience expiresAt).toJson.nesting ≤ maxDepth := by
  constructor
  · exact fun readable => ⟨readable.facts, readable.fits.shallow⟩
  · rintro ⟨facts, shallow⟩
    exact ⟨issued, addressed, facts, nofun, nofun, ordered_payload sound, shallow⟩

theorem fits_payload {depth : Nat} (facts : ∀ j ∈ b.facts, Fits (depth + 3) j)
    (caveats : ∀ c ∈ b.capabilities, ∀ caveat ∈ c.caveats, Fits depth (ofMembers caveat)) :
    Fits (depth + 4) (b.payload issuer audience expiresAt).toJson := by
  refine fits_object.mpr ⟨Dict.sorted _, forall_payload ?_ facts ?_ ?_⟩
  · exact fun j flat _ => fits_of_flat flat
  · exact CapabilityMap.fits_toJson.mpr (CapabilityMap.forall_ofList caveats)
  · intro texts
    rw [fits_array, List.forall_mem_map]
    exact fun s _ => fits_of_flat rfl

/-! ## The token -/

theorem canonical_of_build (built : b.build now = .ok t) : t.Canonical := by
  obtain ⟨_, _, _, _, -, -, -, -, rfl⟩ := build_eq_ok_iff.mp built
  exact Token.canonical_ofParts _ _

/-- It does not matter whether the token that says what was built is signed. -/
theorem decode_iff_of_sound {limit : Nat} {draft : Token} (sound : b.Sound)
    (built : b.build now = .ok draft) (header : t.header = draft.header)
    (payload : t.payload = draft.payload) (canonical : t.Canonical)
    (size : t.encode.utf8ByteSize ≤ limit) :
    Token.decodeWithin limit t.encode = .ok t ↔
      t.payload.facts ≠ some .null ∧ t.payload.toJson.nesting ≤ maxDepth := by
  obtain ⟨issuer, algorithm, audience, expiresAt, issued, -, addressed, -, rfl⟩ :=
    build_eq_ok_iff.mp built
  have readable : (b.payload issuer audience expiresAt).Readable ↔ _ :=
    readable_payload_iff sound (sound.issuer issuer issued) (sound.audience audience addressed)
  obtain ⟨wire, _, _⟩ := t
  cases header
  cases payload
  refine (canonical.decode_eq (readable_header algorithm) (integral_header algorithm)
    (integral_payload sound) ?_ size).trans readable
  exact ⟨rfl, nofun, nofun⟩

/-- A token that was built is decoded from its own text unless its facts are null, which are taken
for no facts, or its payload is nested deeper than any text is read. -/
theorem decode_encode_build_iff (settings : List Setting) (now : UInt64) (limit : Nat) (t : Token)
    (proper : ∀ s ∈ settings, s.Proper) (built : (ofSettings settings).build now = .ok t)
    (size : t.encode.utf8ByteSize ≤ limit) :
    Token.decodeWithin limit t.encode = .ok t ↔
      t.payload.facts ≠ some .null ∧ t.payload.toJson.nesting ≤ maxDepth :=
  decode_iff_of_sound (sound_ofSettings proper) built rfl rfl (canonical_of_build built) size

/-- For an issuer and an audience that hold no key, with nothing but the facts set. -/
def sampleSettings (facts : Json) : List Setting :=
  [.issuer (.other "a" "b") .edDsa, .audience (.other "c" "d"), .facts facts]

theorem proper_sampleSettings {facts : Json} (plain : facts.Plain) :
    ∀ s ∈ sampleSettings facts, s.Proper := by
  have issuer : Did.parse "did:a:b" = .ok (.other "a" "b") := by decide
  have audience : Did.parse "did:c:d" = .ok (.other "c" "d") := by decide
  simp only [sampleSettings, List.forall_mem_cons, List.not_mem_nil, false_imp_iff, implies_true,
    and_true]
  exact ⟨.inl ⟨_, issuer⟩, .inl ⟨_, audience⟩, plain⟩

theorem decode_encode_build_of_empty_facts :
    let settings := sampleSettings (.object [])
    ∃ t, (ofSettings settings).build 0 = .ok t ∧ (∀ s ∈ settings, s.Proper) ∧
      t.encode.utf8ByteSize ≤ Token.maxSize ∧
      (Token.decodeWithin Token.maxSize t.encode = .ok t ↔
        t.payload.facts ≠ some .null ∧ t.payload.toJson.nesting ≤ maxDepth) := by
  intro settings
  have proper : ∀ s ∈ settings, s.Proper := proper_sampleSettings ⟨by decide, by decide⟩
  have size : (Token.ofParts (header .edDsa) ((ofSettings settings).payload (.other "a" "b")
      (.other "c" "d") none)).encode.utf8ByteSize ≤ Token.maxSize := by decide +kernel
  exact ⟨_, rfl, proper, size, decode_encode_build_iff settings 0 Token.maxSize _ proper rfl size⟩

theorem not_decode_encode_build :
    ∃ t, (ofSettings (sampleSettings .null)).build 0 = .ok t ∧
      (∀ s ∈ sampleSettings .null, s.Proper) ∧ t.encode.utf8ByteSize ≤ Token.maxSize ∧
      Token.decode t.encode ≠ .ok t := by
  have proper : ∀ s ∈ sampleSettings .null, s.Proper :=
    proper_sampleSettings ⟨by decide, by decide⟩
  have size : (Token.ofParts (header .edDsa) ((ofSettings (sampleSettings .null)).payload
      (.other "a" "b") (.other "c" "d") none)).encode.utf8ByteSize ≤ Token.maxSize := by
    decide +kernel
  have sound := sound_ofSettings proper
  refine ⟨_, rfl, proper, size, fun read => ?_⟩
  have built : (ofSettings (sampleSettings .null)).build 0 = .ok (Token.ofParts (header .edDsa)
    ((ofSettings (sampleSettings .null)).payload (.other "a" "b") (.other "c" "d") none)) := rfl
  exact ((decode_iff_of_sound sound built rfl rfl (Token.canonical_ofParts _ _) size).mp read).1 rfl

end Builder

end Ucan
