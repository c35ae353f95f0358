import Ucan.KeyResolver
import Ucan.Proofs.Except
import Ucan.Signer

/-!
A signature that a key pair gives is accepted as that of its DID, provided that its scheme accepts
what it signs. With RSA it does, as nothing else is given out.
-/

set_option autoImplicit false

namespace Ucan

namespace SignatureAlgorithm

variable {a : SignatureAlgorithm} {key : PublicKey} {message signature : Bytes}

theorem parse_name (a : SignatureAlgorithm) : parse a.name = .ok a := by
  rw [parse, ofName?_name]

theorem verify_eq_ok_iff :
    a.verify key message signature = .ok () ↔ key.keyType = a.keyType ∧
      ∃ k s, a.scheme.key? key.bytes = some k ∧ a.scheme.signature? signature = some s ∧
        a.scheme.accepts k message s = true := by
  unfold verify
  constructor
  · intro verified
    repeat' split at verified
    all_goals cases verified
    next type _ k read _ s parsed accepted =>
      exact ⟨Decidable.not_not.mp type, k, s, read, parsed, accepted⟩
  · rintro ⟨type, k, s, read, parsed, accepted⟩
    simp [type, read, parsed, accepted]

theorem verify_nil_ne_ok : a.verify key message [] ≠ .ok () := by
  intro verified
  obtain ⟨-, k, s, -, parsed, accepted⟩ := verify_eq_ok_iff.mp verified
  cases a with
  | edDsa | es256 | es256k => cases parsed
  | rs256 =>
    cases parsed
    change Rsa.accepts k message [] = true at accepted
    -- The size of a key is never zero.
    have size : 0 < k.size := by unfold Rsa.Key.size; omega
    simp only [Rsa.accepts, Bool.and_eq_true, beq_iff_eq, List.length_nil] at accepted
    omega

end SignatureAlgorithm

/-- Whatever the secret key signs is accepted under the bytes of the public key. -/
def Keypair.Verifies (k : Keypair) : Prop :=
  ∀ message signature, k.algorithm.scheme.sign k.secret message = .ok signature →
    ∃ key s, k.algorithm.scheme.key? k.publicKey.bytes = some key ∧
      k.algorithm.scheme.signature? signature = some s ∧
      k.algorithm.scheme.accepts key message s = true

theorem Keypair.Verifies.verify {k : Keypair} (verifies : k.Verifies) {message signature : Bytes}
    (signed : k.sign message = .ok signature) :
    k.algorithm.verify k.publicKey message signature = .ok () := by
  unfold Keypair.sign at signed
  split at signed
  next _ given =>
    cases signed
    exact SignatureAlgorithm.verify_eq_ok_iff.mpr
      ⟨k.keyType_publicKey, verifies message signature given⟩
  · cases signed

namespace Token

variable {t signed : Token} {signer : Signer}

theorem sign_eq_ok_iff :
    t.sign signer = .ok signed ↔ t.signature = none ∧ signer.did = t.issuer ∧
      signer.algorithm.name = t.header.algorithm ∧ ∃ signature,
        signer.sign t.wire.signedBytes = .ok signature ∧
          signed = { t with wire := { t.wire with signature := some signature } } := by
  unfold sign
  constructor
  · intro done
    split at done
    · cases done
    next unsigned =>
      split at done
      · cases done
      next issuer =>
        split at done
        · cases done
        next algorithm =>
          obtain ⟨signature, given, made⟩ := map_eq_ok.mp done
          exact ⟨Option.not_isSome_iff_eq_none.mp unsigned, Decidable.not_not.mp issuer,
            Decidable.not_not.mp algorithm, signature, given, made.symm⟩
  · rintro ⟨unsigned, issuer, algorithm, signature, given, rfl⟩
    simp [unsigned, issuer, algorithm, given, Except.map]

theorem checkSignature_eq_ok_iff {keys : KeyResolver} :
    t.checkSignature keys = .ok () ↔ ∃ algorithm signature key,
      SignatureAlgorithm.parse t.header.algorithm = .ok algorithm ∧
      t.signature = some signature ∧ keys t.issuer = .ok key ∧
      algorithm.verify key t.wire.signedBytes signature = .ok () := by
  unfold checkSignature
  rw [bind_eq_ok]
  constructor
  · rintro ⟨algorithm, parsed, checked⟩
    split at checked
    · cases checked
    next signature signed =>
      obtain ⟨key, resolved, verified⟩ := bind_eq_ok.mp checked
      exact ⟨algorithm, signature, key, parsed, signed, resolved, verified⟩
  · rintro ⟨algorithm, signature, key, parsed, signed, resolved, verified⟩
    refine ⟨algorithm, parsed, ?_⟩
    rw [signed]
    exact bind_eq_ok.mpr ⟨key, resolved, verified⟩

/-- What a key pair signed, it signed as the issuer. -/
theorem checkSignature_of_sign {k : Keypair} {keys : KeyResolver} (verifies : k.Verifies)
    (resolved : keys k.did = .ok k.publicKey) (done : t.sign k.signer = .ok signed) :
    signed.checkSignature keys = .ok () := by
  obtain ⟨-, issuer, algorithm, signature, given, rfl⟩ := sign_eq_ok_iff.mp done
  have named : k.algorithm.name = t.header.algorithm := algorithm
  have same : k.did = t.issuer := issuer
  refine checkSignature_eq_ok_iff.mpr ⟨k.algorithm, signature, k.publicKey, ?_, rfl, ?_, ?_⟩
  · exact named ▸ SignatureAlgorithm.parse_name k.algorithm
  · exact same ▸ resolved
  · exact verifies.verify given

theorem signature_ne_nil_of_sign {k : Keypair} (verifies : k.Verifies)
    (done : t.sign k.signer = .ok signed) : signed.signature ≠ some [] := by
  obtain ⟨-, -, -, signature, given, rfl⟩ := sign_eq_ok_iff.mp done
  intro none
  obtain rfl : signature = [] := Option.some.inj none
  exact SignatureAlgorithm.verify_nil_ne_ok (verifies.verify given)

end Token

/-! ## RSA -/

namespace Rsa

theorem toNat_ofNat_of_lt {key : Key} {n : Nat} (small : n < key.modulus) :
    Bytes.toNat (Bytes.ofNat key.size n) = n := by
  have bits : key.modulus < Nat.pow 256 key.size := by
    have whole : key.modulus.log2 + 1 ≤ 8 * key.size := by unfold Key.size; omega
    have power : Nat.pow 256 key.size = Nat.pow 2 (8 * key.size) := (Nat.pow_mul 2 8 key.size).symm
    rw [power]
    exact Nat.lt_of_lt_of_le Nat.lt_log2_self (Nat.pow_le_pow_right (by decide) whole)
  rw [Bytes.toNat_ofNat, Nat.mod_eq_of_lt (Nat.lt_trans small bits)]

theorem powMod_lt {m : Nat} (positive : 0 < m) (b e : Nat) : powMod m b e < m := by
  rw [powMod_eq]
  exact Nat.mod_lt _ positive

theorem combine?_lt {p q a b n : Nat} (positive : 0 < p) (small : b < q)
    (found : combine? p q a b = some n) : n < p * q := by
  obtain ⟨i, -, rfl⟩ := Option.map_eq_some_iff.mp found
  have front : (a + (p - b % p)) * i % p + 1 ≤ p := Nat.mod_lt _ positive
  have whole := Nat.mul_le_mul_right q front
  rw [Nat.add_mul, Nat.one_mul] at whole
  omega

theorem pos_of_isValid {secret : Secret} (valid : secret.isValid = true) :
    0 < secret.key.modulus ∧ secret.p * secret.q = secret.key.modulus := by
  simp only [Secret.isValid, Key.isValid, Bool.and_eq_true, beq_iff_eq] at valid
  omega

theorem apply_lt {secret : Secret} (valid : secret.isValid = true) (n : Nat) :
    secret.apply n < secret.key.modulus := by
  obtain ⟨positive, factors⟩ := pos_of_isValid valid
  have some_factors : 0 < secret.p * secret.q := factors ▸ positive
  unfold Secret.apply
  cases found : combine? secret.p secret.q (powMod secret.p n (secret.exponent % (secret.p - 1)))
      (powMod secret.q n (secret.exponent % (secret.q - 1))) with
  | none =>
    simp only [found, Option.getD_none]
    exact powMod_lt positive _ _
  | some m =>
    simp only [found, Option.getD_some]
    rw [← factors]
    exact combine?_lt (Nat.pos_of_mul_pos_right some_factors)
      (powMod_lt (Nat.pos_of_mul_pos_left some_factors) _ _) found

theorem accepts_of_sign {secret : Secret} (valid : secret.isValid = true) {message signature : Bytes}
    (given : sign secret message = .ok signature) : accepts secret.key message signature = true := by
  unfold sign at given
  split at given
  · cases given
  next padded filled =>
    simp only at given
    split at given
    next undone =>
      cases given
      have small := apply_lt valid padded
      simp [accepts, toNat_ofNat_of_lt small, small, filled, undone]
    · cases given

end Rsa

theorem Keypair.verifies_rsa {secret : Rsa.Secret} (valid : secret.isValid = true)
    (readable : Rsa.Key.decode? secret.key.encode = some secret.key) :
    Keypair.Verifies ⟨.rs256, secret⟩ :=
  fun _ signature given => ⟨secret.key, signature, readable, rfl, Rsa.accepts_of_sign valid given⟩

/-- A key pair no larger than the padding of a digest has to be. -/
def Keypair.sample : Keypair where
  algorithm := .rs256
  secret := {
    key := ⟨0xbfbb35059d615086acf85bb29ffab0b4e7de02a812368e4ecbcd3f5d55dc213bc729cedc706e01b8e46374edf1cb267a0c635d99515e50f26228bdda94e9,
      3⟩
    exponent :=
      0x7fd22359139635af1dfae7cc6aa720789a9401c56179b43487de2a3e393d6a55ad43234b5ff7cafdacd6750c662cb51ba0fccd752fc11ab32eb272dca4b
    p := 0xd786e4d6d076d0b75de6f250bc3228ac11d8717e6e9dbe851d1a33a0301309
    q := 0xe3bc60431ae9a999de7a2f749f265f6abec276aafaebfe23c881e9715f8ae1 : Rsa.Secret }

theorem Keypair.verifies_sample : sample.Verifies :=
  verifies_rsa (by decide +kernel) (by decide +kernel)

end Ucan
