import Ucan.Proofs.Delegation.Graph
import Ucan.Proofs.Signer
import Ucan.Proofs.Wire

/-!
A signature is checked over the text that was received. When the check fails, it is for the first of
the faults that there are, and no scheme ever gets to see a key of another type.
-/

set_option autoImplicit false

namespace Ucan

namespace SignatureAlgorithm

theorem parse_eq_ok_iff {name : String} {a : SignatureAlgorithm} :
    parse name = .ok a ↔ a.name = name := by
  unfold parse
  constructor
  next =>
    intro parsed
    split at parsed
    next found =>
      cases parsed
      exact (eq_name_of_ofName? found).symm
    next => cases parsed
  next =>
    intro named
    rw [← named, ofName?_name]

theorem exists_name {name : String} (known : name ∈ ["EdDSA", "ES256", "ES256K", "RS256"]) :
    ∃ a : SignatureAlgorithm, a.name = name := by
  have mem : name ∈ all.map SignatureAlgorithm.name := known
  have ⟨a, _, named⟩ := List.mem_map.mp mem
  exact ⟨a, named⟩

theorem parse_of_unknown {name : String}
    (unknown : name ∉ ["EdDSA", "ES256", "ES256K", "RS256"]) :
    parse name = .error (.unsupportedAlgorithm name) := by
  have none : ofName? name = none := by
    rw [ofName?, List.find?_eq_none]
    intro a _ same
    apply unknown
    rw [← beq_iff_eq.mp same]
    cases a <;> decide
  rw [parse, none]

/-- What is left to check for the scheme of an algorithm, once the key is one of its type. -/
def check (scheme : SignatureScheme) (key message signature : Bytes) : Except SignatureError Unit :=
  match scheme.key? key with
  | none => .error .invalidPublicKey
  | some key =>
    match scheme.signature? signature with
    | none => .error .malformedSignature
    | some signature =>
      if scheme.accepts key message signature then .ok () else .error .invalidSignature

theorem verify_eq (a : SignatureAlgorithm) (key : PublicKey) (message signature : Bytes) :
    a.verify key message signature =
      if key.keyType ≠ a.keyType then .error (.algorithmKeyMismatch a key.keyType)
      else check a.scheme key.bytes message signature := by
  unfold verify check
  cases a.scheme.key? key.bytes with
  | none => rfl
  | some k => cases a.scheme.signature? signature <;> rfl

end SignatureAlgorithm

/-- The check of a token's signature, with other schemes in the place of those of the algorithms. -/
def Token.checkSignatureBy (schemes : SignatureAlgorithm → SignatureScheme) (t : Token)
    (keys : KeyResolver) : Except SignatureError Unit := do
  let algorithm ← SignatureAlgorithm.parse t.header.algorithm
  match t.signature with
  | none => .error .missingSignature
  | some signature =>
    let key ← keys t.issuer
    if key.keyType ≠ algorithm.keyType then .error (.algorithmKeyMismatch algorithm key.keyType)
    else SignatureAlgorithm.check (schemes algorithm) key.bytes t.wire.signedBytes signature

/-- No scheme but that of the named algorithm matters, nor that one to a key of another type. -/
theorem Token.checkSignatureBy_eq {schemes : SignatureAlgorithm → SignatureScheme} {t : Token}
    {keys : KeyResolver} (agree : ∀ a key, a.name = t.header.algorithm → keys t.issuer = .ok key →
      key.keyType = a.keyType → schemes a = a.scheme) :
    t.checkSignatureBy schemes keys = t.checkSignature keys := by
  unfold checkSignatureBy checkSignature
  simp only [SignatureAlgorithm.verify_eq]
  cases parsed : SignatureAlgorithm.parse t.header.algorithm with
  | error e => rfl
  | ok a =>
    have named := SignatureAlgorithm.parse_eq_ok_iff.mp parsed
    cases t.signature with
    | none => rfl
    | some signature =>
      cases resolved : keys t.issuer with
      | error e => rfl
      | ok key =>
        simp only [bind, Except.bind]
        by_cases type : key.keyType = a.keyType
        next => rw [agree a key named resolved type]
        next => rw [if_pos type, if_pos type]

/-- What there is to a signature check: the algorithm's name, what the resolver answers for the
issuer, the text before the last dot, and the one after it. -/
structure SignatureCheck where
  algorithm : String
  answer : Except SignatureError PublicKey
  message : Bytes
  segment : Bytes

namespace SignatureCheck

/-- The issuer's key is of the type that goes with the algorithm. -/
structure HasKey (c : SignatureCheck) (a : SignatureAlgorithm) (key : PublicKey) : Prop where
  named : a.name = c.algorithm
  signed : c.segment ≠ []
  resolved : c.answer = .ok key
  type : key.keyType = a.keyType

def Passes (c : SignatureCheck) : Prop :=
  ∃ a key k signature s, c.HasKey a key ∧ a.scheme.key? key.bytes = some k ∧
    Base64Url.decode c.segment = .ok signature ∧ a.scheme.signature? signature = some s ∧
    a.scheme.accepts k c.message s = true

/-- The faults in their order: each comes with what makes all before it be absent. -/
inductive Fails (c : SignatureCheck) : SignatureError → Prop where
  | unsupportedAlgorithm (unknown : c.algorithm ∉ ["EdDSA", "ES256", "ES256K", "RS256"]) :
    Fails c (.unsupportedAlgorithm c.algorithm)
  | missingSignature {a : SignatureAlgorithm} (named : a.name = c.algorithm)
    (unsigned : c.segment = []) : Fails c .missingSignature
  | unresolved {a : SignatureAlgorithm} {e : SignatureError} (named : a.name = c.algorithm)
    (signed : c.segment ≠ []) (refused : c.answer = .error e) : Fails c e
  | algorithmKeyMismatch {a : SignatureAlgorithm} {key : PublicKey} (named : a.name = c.algorithm)
    (signed : c.segment ≠ []) (resolved : c.answer = .ok key) (other : key.keyType ≠ a.keyType) :
    Fails c (.algorithmKeyMismatch a key.keyType)
  | invalidPublicKey {a : SignatureAlgorithm} {key : PublicKey} (own : c.HasKey a key)
    (invalid : a.scheme.key? key.bytes = none) : Fails c .invalidPublicKey
  | malformedSignature {a : SignatureAlgorithm} {key : PublicKey} {k : a.scheme.Key}
    {signature : Bytes} (own : c.HasKey a key) (valid : a.scheme.key? key.bytes = some k)
    (decoded : Base64Url.decode c.segment = .ok signature)
    (malformed : a.scheme.signature? signature = none) : Fails c .malformedSignature
  | invalidSignature {a : SignatureAlgorithm} {key : PublicKey} {k : a.scheme.Key}
    {signature : Bytes} {s : a.scheme.Signature} (own : c.HasKey a key)
    (valid : a.scheme.key? key.bytes = some k)
    (decoded : Base64Url.decode c.segment = .ok signature)
    (formed : a.scheme.signature? signature = some s)
    (refused : a.scheme.accepts k c.message s = false) : Fails c .invalidSignature

end SignatureCheck

namespace Token

/-- The check of a token's signature, in terms of what its text is made of. -/
def toCheck (t : Token) (keys : KeyResolver) : SignatureCheck :=
  ⟨t.header.algorithm, keys t.issuer, t.wire.signedBytes, Base64Url.encode (t.signature.getD [])⟩

variable {t : Token} {keys : KeyResolver} {e : SignatureError}

theorem segment_eq_nil_iff (proper : t.signature ≠ some []) :
    (t.toCheck keys).segment = [] ↔ t.signature = none := by
  rw [toCheck, Base64Url.encode_eq_nil]
  cases signed : t.signature with
  | none => exact iff_of_true rfl rfl
  | some signature =>
    rw [signed] at proper
    exact iff_of_false (fun empty => proper (congrArg some empty)) nofun

theorem exists_signature (proper : t.signature ≠ some [])
    (signed : (t.toCheck keys).segment ≠ []) : ∃ signature, t.signature = some signature := by
  rw [ne_eq, segment_eq_nil_iff proper] at signed
  exact Option.ne_none_iff_exists'.mp signed

theorem decode_segment {signature : Bytes} (signed : t.signature = some signature) :
    Base64Url.decode (t.toCheck keys).segment = .ok signature := by
  rw [toCheck, signed]
  exact Base64Url.decode_encode signature

theorem checkSignature_of_signature {a : SignatureAlgorithm} {signature : Bytes}
    (named : a.name = t.header.algorithm) (signed : t.signature = some signature) :
    t.checkSignature keys = keys t.issuer >>= fun key =>
      a.verify key t.wire.signedBytes signature := by
  rw [checkSignature, SignatureAlgorithm.parse_eq_ok_iff.mpr named, signed]
  rfl

theorem checkSignature_of_hasKey {a : SignatureAlgorithm} {key : PublicKey} {signature : Bytes}
    (proper : t.signature ≠ some []) (own : (t.toCheck keys).HasKey a key)
    (decoded : Base64Url.decode (t.toCheck keys).segment = .ok signature) :
    t.checkSignature keys =
      SignatureAlgorithm.check a.scheme key.bytes t.wire.signedBytes signature := by
  have ⟨named, signed, resolved, type⟩ := own
  have ⟨signature', found⟩ := exists_signature proper signed
  rw [decode_segment found] at decoded
  cases decoded
  have answered : keys t.issuer = .ok key := resolved
  rw [checkSignature_of_signature named found, answered]
  exact (SignatureAlgorithm.verify_eq a key _ _).trans (if_neg (not_not_intro type))

theorem checkSignature_of_passes (proper : t.signature ≠ some [])
    (passes : (t.toCheck keys).Passes) : t.checkSignature keys = .ok () := by
  have ⟨a, key, k, signature, s, own, valid, decoded, formed, accepted⟩ := passes
  have accepted : a.scheme.accepts k t.wire.signedBytes s = true := accepted
  rw [checkSignature_of_hasKey proper own decoded, SignatureAlgorithm.check, valid]
  simp only [formed, accepted, if_true]

theorem checkSignature_of_fails (proper : t.signature ≠ some [])
    (fails : (t.toCheck keys).Fails e) : t.checkSignature keys = .error e := by
  cases fails with
  | unsupportedAlgorithm unknown =>
    have refused : SignatureAlgorithm.parse t.header.algorithm = .error _ :=
      SignatureAlgorithm.parse_of_unknown unknown
    rw [checkSignature, refused]
    rfl
  | @missingSignature a named unsigned =>
    have parsed : SignatureAlgorithm.parse t.header.algorithm = .ok a :=
      SignatureAlgorithm.parse_eq_ok_iff.mpr named
    rw [checkSignature, parsed, (segment_eq_nil_iff proper).mp unsigned]
    rfl
  | unresolved named signed refused =>
    have ⟨signature, found⟩ := exists_signature proper signed
    have answered : keys t.issuer = .error e := refused
    rw [checkSignature_of_signature named found, answered]
    rfl
  | @algorithmKeyMismatch a key named signed resolved other =>
    have ⟨signature, found⟩ := exists_signature proper signed
    have answered : keys t.issuer = .ok key := resolved
    rw [checkSignature_of_signature named found, answered]
    exact (SignatureAlgorithm.verify_eq a key _ _).trans (if_pos other)
  | invalidPublicKey own invalid =>
    have ⟨signature, found⟩ := exists_signature proper own.signed
    rw [checkSignature_of_hasKey proper own (decode_segment found), SignatureAlgorithm.check,
      invalid]
  | malformedSignature own valid decoded malformed =>
    rw [checkSignature_of_hasKey proper own decoded, SignatureAlgorithm.check, valid]
    simp only [malformed]
  | @invalidSignature a key k signature s own valid decoded formed refused =>
    have refused : a.scheme.accepts k t.wire.signedBytes s = false := refused
    rw [checkSignature_of_hasKey proper own decoded, SignatureAlgorithm.check, valid]
    simp only [formed, refused]
    rfl

theorem passes_or_fails (t : Token) (keys : KeyResolver) :
    (t.toCheck keys).Passes ∨ ∃ e, (t.toCheck keys).Fails e := by
  by_cases known : (t.toCheck keys).algorithm ∈ ["EdDSA", "ES256", "ES256K", "RS256"]
  case neg => exact .inr ⟨_, .unsupportedAlgorithm known⟩
  have ⟨a, named⟩ := SignatureAlgorithm.exists_name known
  by_cases signed : (t.toCheck keys).segment = []
  case pos => exact .inr ⟨_, .missingSignature named signed⟩
  cases resolved : (t.toCheck keys).answer with
  | error e => exact .inr ⟨e, .unresolved named signed resolved⟩
  | ok key =>
    by_cases type : key.keyType = a.keyType
    case neg => exact .inr ⟨_, .algorithmKeyMismatch named signed resolved type⟩
    have own : (t.toCheck keys).HasKey a key := ⟨named, signed, resolved, type⟩
    have decoded := Base64Url.decode_encode (t.signature.getD [])
    cases valid : a.scheme.key? key.bytes with
    | none => exact .inr ⟨_, .invalidPublicKey own valid⟩
    | some k =>
      cases formed : a.scheme.signature? (t.signature.getD []) with
      | none => exact .inr ⟨_, .malformedSignature own valid decoded formed⟩
      | some s =>
        cases accepted : a.scheme.accepts k (t.toCheck keys).message s with
        | false => exact .inr ⟨_, .invalidSignature own valid decoded formed accepted⟩
        | true => exact .inl ⟨a, key, k, _, s, own, valid, decoded, formed, accepted⟩

theorem checkSignature_iff (t : Token) (keys : KeyResolver) (proper : t.signature ≠ some []) :
    (t.checkSignature keys = .ok () ↔ (t.toCheck keys).Passes) ∧
      ∀ e, t.checkSignature keys = .error e ↔ (t.toCheck keys).Fails e := by
  refine ⟨⟨fun good => ?_, checkSignature_of_passes proper⟩,
    fun e => ⟨fun failed => ?_, checkSignature_of_fails proper⟩⟩
  next =>
    rcases t.passes_or_fails keys with passes | ⟨e, fails⟩
    next => exact passes
    next => cases good.symm.trans (checkSignature_of_fails proper fails)
  next =>
    rcases t.passes_or_fails keys with passes | ⟨found, fails⟩
    next => cases failed.symm.trans (checkSignature_of_passes proper passes)
    next =>
      cases failed.symm.trans (checkSignature_of_fails proper fails)
      exact fails

/-- The parts of a decoded text are the parts of the check. -/
theorem toCheck_of_decodeWithin {limit : Nat} {text : String}
    (read : decodeWithin limit text = .ok t) (keys : KeyResolver) :
    ∃ before last : String, text = before ++ "." ++ last ∧ '.' ∉ last.toList ∧
      t.toCheck keys = ⟨t.header.algorithm, keys t.issuer, utf8 before, utf8 last⟩ := by
  refine ⟨t.signedData, _, ?_, Wire.dot_not_mem_signature t.wire, ?_⟩
  next => exact (encode_of_decodeWithin read).symm.trans (Wire.text_eq_append t.wire)
  next =>
    have message := utf8_ofAscii fun _ => Wire.ascii_of_mem_signedBytes (w := t.wire)
    have segment : utf8 (ofAscii (Base64Url.encode (t.signature.getD []))) = _ :=
      utf8_ofAscii fun _ member => (Base64Url.ascii_of_mem_encode member).1
    rw [toCheck, signedData, message]
    exact congrArg (SignatureCheck.mk _ _ _) segment.symm

/-- The signature check is one of the text that was decoded: it passes when the primitive of the
named algorithm accepts what is after the last dot as the issuer's signature of what is before, and
otherwise fails for the first fault. -/
theorem signature_check_exact (limit : Nat) (text : String) (t : Token) (keys : KeyResolver)
    (read : decodeWithin limit text = .ok t) :
    ∃ before last : String, text = before ++ "." ++ last ∧ '.' ∉ last.toList ∧
      (t.checkSignature keys = .ok () ↔
        SignatureCheck.Passes ⟨t.header.algorithm, keys t.issuer, utf8 before, utf8 last⟩) ∧
      (∀ e, t.checkSignature keys = .error e ↔
        SignatureCheck.Fails ⟨t.header.algorithm, keys t.issuer, utf8 before, utf8 last⟩ e) ∧
      ∀ schemes : SignatureAlgorithm → SignatureScheme,
        (∀ a key, a.name = t.header.algorithm → keys t.issuer = .ok key →
          key.keyType = a.keyType → schemes a = a.scheme) →
        t.checkSignatureBy schemes keys = t.checkSignature keys := by
  have ⟨before, last, parts, whole, same⟩ := toCheck_of_decodeWithin read keys
  have ⟨⟨_, _, proper⟩, _⟩ := Wire.bytes_of_ofBytes (wire_of_decodeWithin read)
  have ⟨passes, fails⟩ := t.checkSignature_iff keys proper
  rw [same] at passes fails
  exact ⟨before, last, parts, whole, passes, fails, fun _ agree => checkSignatureBy_eq agree⟩

theorem signature_check_exact_of_root :
    let root := Delegation.Sample.root
    let keys := Delegation.Sample.keys
    decode root.encode = .ok root ∧ ∃ before last : String,
      root.encode = before ++ "." ++ last ∧ '.' ∉ last.toList ∧
      SignatureCheck.Passes ⟨root.header.algorithm, keys root.issuer, utf8 before, utf8 last⟩ := by
  intro root keys
  have decoded := Delegation.Sample.decode_root
  have ⟨before, last, parts, whole, passes, _⟩ :=
    signature_check_exact maxSize root.encode root keys decoded
  exact ⟨decoded, before, last, parts, whole, passes.mp Delegation.Sample.signed_root⟩

end Token

end Ucan
