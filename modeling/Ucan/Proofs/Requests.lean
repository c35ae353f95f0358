import Ucan.Proofs.DidText
import Ucan.Proofs.Grouping
import Ucan.Proofs.Operations

/-!
What is asked for is what the token says, and what is read of its text.
-/

set_option autoImplicit false

namespace Ucan

/-- The token of the issuer says what was asked for. -/
structure Token.MadeFor (t : Token) (k : Keypair) (audience : String) (options : BuildOptions) :
    Prop where
  issuer : t.issuer = k.did
  algorithm : t.header.algorithm = k.algorithm.name
  audience : t.audience.toString = audience
  expiresAt : t.payload.expiresAt = options.expiration
  notBefore : t.payload.notBefore = options.notBefore
  nonce : t.payload.nonce = options.nonce
  facts : t.payload.facts = options.facts
  proofs : t.proofs = options.proofs.getD []
  version : t.version = "0.10.0"
  -- A resource without abilities is not asked for.
  capabilities : t.payload.capabilityMap =
    some ((options.capabilities.getD .empty).withoutEmpty)
  unsigned : t.signature = none

theorem CapabilityMap.ofList_getD (map : Option CapabilityMap) :
    ofList ((map.map toList).getD []) = (map.getD .empty).withoutEmpty := by
  cases map with
  | none => rfl
  | some map => exact ofList_toList map

theorem Builder.expiresAt_of_no_lifetime {b : Builder} (now : UInt64)
    (lasting : b.lifetime = none) : b.expiresAt now = .ok b.expiration := by
  rw [expiresAt, lasting]
  cases b.expiration <;> rfl

theorem Token.madeFor_of_build {k : Keypair} {audience : String} {options : BuildOptions}
    {now : UInt64} {recipient : Did} {t : Token} (lasting : options.lifetime = none)
    (addressed : Did.parse audience = .ok recipient)
    (built : (Builder.ofSettings (.issuedBy k.signer :: .audience recipient ::
      options.settings)).build now = .ok t) : t.MadeFor k audience options := by
  rw [Builder.Setting.issuedBy, BuildOptions.ofSettings_settings] at built
  obtain ⟨_, _, _, expiresAt, ⟨⟩, ⟨⟩, ⟨⟩, timed, rfl⟩ := Builder.build_eq_ok_iff.mp built
  rw [Builder.expiresAt_of_no_lifetime now lasting] at timed
  cases timed
  exact {
    issuer := rfl
    algorithm := rfl
    audience := Did.toString_of_parse addressed
    expiresAt := rfl
    notBefore := rfl
    nonce := rfl
    facts := rfl
    proofs := Builder.proofs_payload _ _ _ _
    version := rfl
    capabilities := congrArg some (CapabilityMap.ofList_getD options.capabilities)
    unsigned := rfl }

/-- Whatever could be asked for, once the token is built it is read as it was built, and says all
of it. In particular, nothing that was read as part of a request is nested too deep to be read
again. -/
theorem decode_build (k : Keypair) (audience : String) (json : Bytes) (options : BuildOptions)
    (now : UInt64) (t : Token) (parsed : BuildOptions.parse json = .ok options)
    (integral : options.Integral) (lasting : options.lifetime = none)
    (built : build k.signer audience options now = .ok t)
    (size : t.encode.utf8ByteSize ≤ Token.maxSize) :
    ∃ read, Token.decode t.encode = .ok read ∧ read = t ∧ read.MadeFor k audience options := by
  obtain ⟨b, prepared, built⟩ := bind_eq_ok.mp built
  obtain ⟨recipient, addressed, made⟩ := bind_eq_ok.mp prepared
  cases made
  have addressed := within_eq_ok_iff.mp addressed
  have built := within_eq_ok_iff.mp built
  have read : Token.decode t.encode = .ok t :=
    BuildOptions.decode_of_build (BuildOptions.sound_of_parse parsed) integral (.inr ⟨k, rfl⟩)
      (.inl ⟨audience, addressed⟩) built rfl rfl (Builder.canonical_of_build built) size
  exact ⟨t, read, rfl, Token.madeFor_of_build lasting addressed built⟩

theorem decode_build_of_empty_resource :
    let json := utf8 ("\x7b\"expiration\":9,\"facts\":[-1],\"proofs\":[\"p\",\"o\"]," ++
      "\"nonce\":\"\",\"capabilities\":\x7b\"r\":\x7b\"x\":[\x7b\x7d]\x7d,\"q\":\x7b\x7d\x7d\x7d")
    let map : CapabilityMap := Dict.empty.insert "r" (Dict.empty.insert "x" [.empty])
    let options : BuildOptions :=
      { expiration := some 9
        facts := some (.array [.number (.integer (-1) (by decide))])
        proofs := some ["p", "o"]
        nonce := some ""
        capabilities := some (map.insert "q" .empty) }
    BuildOptions.parse json = .ok options ∧ options.Integral ∧
      ∃ t read, build Keypair.sample.signer "did:a:b" options 3 = .ok t ∧
        t.encode.utf8ByteSize ≤ Token.maxSize ∧ Token.decode t.encode = .ok read ∧ read = t ∧
        read.payload.expiresAt = some 9 ∧ read.proofs = ["p", "o"] ∧
        read.payload.capabilityMap = some map := by
  intro json map options
  have parsed : BuildOptions.parse json = .ok options := eq_ok_of_toOption (by decide +kernel)
  have integral : options.Integral := ⟨by decide, by decide⟩
  have made : (build Keypair.sample.signer "did:a:b" options 3).toOption.any
      fun t => t.encode.utf8ByteSize ≤ Token.maxSize := by decide +kernel
  obtain ⟨t, built, size⟩ := exists_ok_of_any made
  have size := of_decide_eq_true size
  obtain ⟨read, decoded, same, asked⟩ :=
    decode_build Keypair.sample "did:a:b" json options 3 t parsed integral rfl built size
  have kept : CapabilityMap.withoutEmpty (map.insert "q" .empty) = map := by decide
  exact ⟨parsed, integral, t, read, built, size, decoded, same, asked.expiresAt, asked.proofs,
    asked.capabilities.trans (congrArg some kept)⟩

end Ucan
