import Ucan.Proofs.RoundTrip
import Ucan.Proofs.Signer

/-!
Signing, told from the text of a token: what stands before the last dot is what is signed and stays as
it is, and the signature comes after it, once. A token that is not signed has the first of the faults
that there are.
-/

set_option autoImplicit false

namespace Ucan.Token

def withSignature (t : Token) (signature : Bytes) : Token :=
  { t with wire := { t.wire with signature := some signature } }

/-- Nobody has signed the token, and the signer is its issuer with the algorithm of its header. -/
structure Admits (t : Token) (signer : Signer) : Prop where
  unsigned : t.signature = none
  issuer : signer.did = t.issuer
  algorithm : signer.algorithm.name = t.header.algorithm

/-- The faults in their order: each comes with what makes all before it be absent. -/
inductive Refuses (t : Token) (signer : Signer) : SigningError → Prop where
  | alreadySigned (signed : t.signature ≠ none) : Refuses t signer .alreadySigned
  | issuerMismatch (unsigned : t.signature = none) (other : signer.did ≠ t.issuer) :
    Refuses t signer (.issuerMismatch signer.did)
  | algorithmMismatch (unsigned : t.signature = none) (issuer : signer.did = t.issuer)
    (other : signer.algorithm.name ≠ t.header.algorithm) :
    Refuses t signer (.algorithmMismatch signer.algorithm)
  | notGiven {e : SigningError} (admits : t.Admits signer)
    (failed : signer.sign (utf8 t.signedData) = .error e) : Refuses t signer e

/-- The signed token is the token before, and has the signature for good. -/
structure Commits (t : Token) (signature : Bytes) (signed : Token) : Prop where
  header : signed.header = t.header
  payload : signed.payload = t.payload
  signedData : signed.signedData = t.signedData
  committed : signed.signature = some signature
  encode : signed.encode = t.encode ++ ofAscii (Base64Url.encode signature)
  final : ∀ other : Signer, signed.sign other = .error .alreadySigned
  -- An empty signature is not told from none.
  decode : ∀ limit otherLimit, decodeWithin limit t.encode = .ok t →
    signed.encode.utf8ByteSize ≤ otherLimit →
    (decodeWithin otherLimit signed.encode = .ok signed ↔ signature ≠ [])

variable {t signed : Token} {signer : Signer} {signature : Bytes} {e : SigningError}

theorem utf8_signedData (t : Token) : utf8 t.signedData = t.wire.signedBytes :=
  utf8_ofAscii fun _ => Wire.ascii_of_mem_signedBytes

theorem encode_withSignature (unsigned : t.signature = none) :
    (t.withSignature signature).encode = t.encode ++ ofAscii (Base64Url.encode signature) := by
  have absent : t.wire.signature = none := unsigned
  have nothing : ofAscii (Base64Url.encode []) = "" := rfl
  simp only [encode, withSignature, Wire.text_eq_append, Wire.signedBytes, absent,
    Option.getD_none, Option.getD_some, nothing, String.append_empty]

theorem sign_withSignature (other : Signer) :
    (t.withSignature signature).sign other = .error .alreadySigned := rfl

theorem decode_withSignature {limit otherLimit : Nat} (read : decodeWithin limit t.encode = .ok t)
    (size : (t.withSignature signature).encode.utf8ByteSize ≤ otherLimit) :
    decodeWithin otherLimit (t.withSignature signature).encode = .ok (t.withSignature signature) ↔
      signature ≠ [] := by
  constructor
  next =>
    intro again empty
    obtain ⟨⟨-, -, proper⟩, -⟩ := Wire.bytes_of_ofBytes (wire_of_decodeWithin again)
    exact proper (congrArg some empty)
  next =>
    intro present
    obtain ⟨⟨header, payload, -⟩, -⟩ := Wire.bytes_of_ofBytes (wire_of_decodeWithin read)
    have proper : (t.withSignature signature).wire.Proper :=
      ⟨header, payload, fun empty => present (Option.some.inj empty)⟩
    obtain ⟨-, headed, loaded, accepted⟩ := ofWire_eq_ok_iff.mp (ofWire_of_decodeWithin read)
    rw [decodeWithin_encode size proper, ofWire_eq_ok_iff]
    exact ⟨rfl, headed, loaded, accepted.typed, accepted.versioned, accepted.capable⟩

theorem commits_withSignature (unsigned : t.signature = none) (signature : Bytes) :
    t.Commits signature (t.withSignature signature) where
  header := rfl
  payload := rfl
  signedData := rfl
  committed := rfl
  encode := encode_withSignature unsigned
  final := sign_withSignature
  decode := fun _ _ => decode_withSignature

theorem sign_of_admits (admits : t.Admits signer) :
    t.sign signer = (signer.sign (utf8 t.signedData)).map t.withSignature := by
  obtain ⟨unsigned, issuer, algorithm⟩ := admits
  simp only [sign, unsigned, issuer, algorithm, utf8_signedData, Option.isSome_none, ne_eq,
    not_true, if_false, Bool.false_eq_true]
  rfl

theorem sign_of_refuses (refuses : t.Refuses signer e) : t.sign signer = .error e := by
  cases refuses with
  | alreadySigned signed =>
    have present : t.signature.isSome := Option.isSome_iff_ne_none.mpr signed
    rw [sign, if_pos present]
  | issuerMismatch unsigned other => simp [sign, unsigned, other]
  | algorithmMismatch unsigned issuer other => simp [sign, unsigned, issuer, other]
  | notGiven admits failed =>
    rw [sign_of_admits admits, failed]
    rfl

theorem admits_or_refuses (t : Token) (signer : Signer) :
    t.Admits signer ∨ ∃ e, t.Refuses signer e := by
  by_cases unsigned : t.signature = none
  case neg => exact .inr ⟨_, .alreadySigned unsigned⟩
  by_cases issuer : signer.did = t.issuer
  case neg => exact .inr ⟨_, .issuerMismatch unsigned issuer⟩
  by_cases algorithm : signer.algorithm.name = t.header.algorithm
  case neg => exact .inr ⟨_, .algorithmMismatch unsigned issuer algorithm⟩
  exact .inl ⟨unsigned, issuer, algorithm⟩

/-- A signer signs the text before the last dot if it speaks for the issuer of a token that nobody
has signed. Its signature is all that is added, and stays. -/
theorem sign_exact (t : Token) (signer : Signer) :
    (∀ signed, t.sign signer = .ok signed ↔ t.signature = none ∧ signer.did = t.issuer ∧
      signer.algorithm.name = t.header.algorithm ∧ ∃ signature,
        signer.sign (utf8 t.signedData) = .ok signature ∧ signed = t.withSignature signature) ∧
    (∀ signed, t.sign signer = .ok signed → ∃ signature,
      signer.sign (utf8 t.signedData) = .ok signature ∧ t.Commits signature signed) ∧
    ∀ e, t.sign signer = .error e ↔ t.Refuses signer e := by
  have signs : ∀ signed, t.sign signer = .ok signed ↔ t.signature = none ∧
      signer.did = t.issuer ∧ signer.algorithm.name = t.header.algorithm ∧ ∃ signature,
        signer.sign (utf8 t.signedData) = .ok signature ∧ signed = t.withSignature signature := by
    intro signed
    rw [utf8_signedData]
    exact sign_eq_ok_iff
  refine ⟨signs, ?_, ?_⟩
  next =>
    intro signed done
    obtain ⟨unsigned, -, -, signature, given, rfl⟩ := (signs signed).mp done
    exact ⟨signature, given, commits_withSignature unsigned signature⟩
  next =>
    intro e
    refine ⟨fun failed => ?_, sign_of_refuses⟩
    rcases t.admits_or_refuses signer with admits | ⟨first, refuses⟩
    next =>
      cases given : signer.sign (utf8 t.signedData) with
      | ok signature =>
        rw [sign_of_admits admits, given] at failed
        cases failed
      | error reason =>
        have refuses := Refuses.notGiven admits given
        cases failed.symm.trans (sign_of_refuses refuses)
        exact refuses
    next =>
      cases failed.symm.trans (sign_of_refuses refuses)
      exact refuses

/-- The signer speaks for an identifier that holds no key. -/
theorem sign_exact_of_other_issuer :
    let t : Token := .ofParts ⟨"ES256", "JWT", none, .empty⟩
      ⟨some "", .other "a" "b", .other "c" "d", none, none, none, none, some .empty, none, none,
        .empty⟩
    let signer : Signer := ⟨.other "a" "b", .es256, fun message => .ok (message.take 2)⟩
    ∃ signed, t.sign signer = .ok signed ∧ signed.encode = t.encode ++ "ZXk" ∧
      decode t.encode = .ok t ∧ decode signed.encode = .ok signed ∧
      signed.sign signer = .error .alreadySigned ∧
      t.sign { signer with did := .other "c" "d", algorithm := .rs256 } =
        .error (.issuerMismatch (.other "c" "d")) := by
  intro t signer
  have read : decode t.encode = .ok t := eq_ok_of_toOption (by decide +kernel)
  have signature : signer.sign (utf8 t.signedData) = .ok [101, 121] := by decide +kernel
  have size : (t.withSignature [101, 121]).encode.utf8ByteSize ≤ maxSize := by decide +kernel
  obtain ⟨signs, commits, -⟩ := sign_exact t signer
  have done := (signs _).mpr ⟨rfl, rfl, rfl, _, signature, rfl⟩
  obtain ⟨_, given, commits⟩ := commits _ done
  cases signature.symm.trans given
  refine ⟨_, done, commits.encode, read, ?_, commits.final signer, ?_⟩
  next => exact (commits.decode maxSize maxSize read size).mpr (by decide)
  next => exact ((sign_exact t _).2.2 _).mpr (.issuerMismatch rfl (by decide))

end Ucan.Token
