import Mathlib.Data.Nat.ModEq
import Mathlib.FieldTheory.Finite.Basic
import Ucan.Proofs.Encoding
import Ucan.Proofs.Signer

/-!
RSA keys of two different primes: the public operation undoes the secret one, which takes the powers
modulo each prime. So every message is signed that is not too long for the key.
-/

set_option autoImplicit false

namespace Ucan.Rsa

theorem powMod_modEq (m b e : Nat) : powMod m b e ≡ b ^ e [MOD m] := by
  rw [powMod_eq]
  exact Nat.mod_modEq _ _

/-- By Fermat's little theorem, powers come round again after one less than the prime. -/
theorem pow_modEq_self {p e : Nat} (prime : p.Prime) (round : e % (p - 1) = 1) (n : Nat) :
    n ^ e ≡ n [MOD p] := by
  have parts : e = (p - 1) * (e / (p - 1)) + 1 := by
    have whole := Nat.div_add_mod e (p - 1)
    rw [round] at whole
    exact whole.symm
  by_cases divides : p ∣ n
  next =>
    have zero : n ≡ 0 [MOD p] := (Nat.modEq_zero_iff_dvd).mpr divides
    have power : n ^ e ≡ 0 [MOD p] := by
      rw [Nat.modEq_zero_iff_dvd, parts, pow_succ]
      exact Dvd.dvd.mul_left divides _
    exact power.trans zero.symm
  next =>
    have coprime : n.Coprime p := (prime.coprime_iff_not_dvd.mpr divides).symm
    have fermat : n ^ (p - 1) ≡ 1 [MOD p] := by
      rw [← Nat.totient_prime prime]
      exact Nat.ModEq.pow_totient coprime
    calc n ^ e = (n ^ (p - 1)) ^ (e / (p - 1)) * n := by rw [← pow_mul, ← pow_succ, ← parts]
      _ ≡ 1 ^ (e / (p - 1)) * n [MOD p] := (fermat.pow _).mul_right n
      _ = n := by rw [one_pow, one_mul]

variable {secret : Secret}

/-- The two factors are different primes, which is not checked when a key is read. -/
structure Secret.Genuine (secret : Secret) : Prop where
  p : secret.p.Prime
  q : secret.q.Prime
  distinct : secret.p ≠ secret.q

/-- Modulo either factor, where the exponent of the secret key may be reduced. -/
theorem powMod_pow_modEq {f d e : Nat} (prime : f.Prime) (round : d * e % (f - 1) = 1) (n : Nat) :
    powMod f n (d % (f - 1)) ^ e ≡ n [MOD f] := by
  have reduced : d % (f - 1) * e % (f - 1) = 1 := by rw [Nat.mod_mul_mod, round]
  calc powMod f n (d % (f - 1)) ^ e ≡ (n ^ (d % (f - 1))) ^ e [MOD f] := (powMod_modEq _ _ _).pow e
    _ = n ^ (d % (f - 1) * e) := (pow_mul _ _ _).symm
    _ ≡ n [MOD f] := pow_modEq_self prime reduced n

theorem inverse?_of_coprime {m a : Nat} (coprime : a.Coprime m) : ∃ b, inverse? m a = some b := by
  rw [inverse?, if_pos coprime]
  exact ⟨_, rfl⟩

/-- The secret operation has the power modulo each factor as its remainder. -/
theorem apply_modEq (genuine : secret.Genuine) (n : Nat) :
    secret.apply n ≡ powMod secret.p n (secret.exponent % (secret.p - 1)) [MOD secret.p] ∧
      secret.apply n ≡ powMod secret.q n (secret.exponent % (secret.q - 1)) [MOD secret.q] := by
  have coprime : secret.q.Coprime secret.p :=
    (Nat.coprime_primes genuine.q genuine.p).mpr genuine.distinct.symm
  obtain ⟨i, inverse⟩ := inverse?_of_coprime coprime
  unfold Secret.apply
  cases found : combine? secret.p secret.q (powMod secret.p n (secret.exponent % (secret.p - 1)))
      (powMod secret.q n (secret.exponent % (secret.q - 1))) with
  | none =>
    rw [combine?, inverse] at found
    cases found
  | some m =>
    simp only [found, Option.getD_some]
    exact mod_of_combine? genuine.p.pos found

/-- The public operation undoes the secret one. -/
theorem apply_apply (valid : secret.isValid = true) (genuine : secret.Genuine) {n : Nat}
    (small : n < secret.key.modulus) : secret.key.apply (secret.apply n) = n := by
  obtain ⟨-, factors⟩ := pos_of_isValid valid
  have rounds := valid
  simp only [Secret.isValid, Bool.and_eq_true, beq_iff_eq] at rounds
  obtain ⟨⟨-, roundP⟩, roundQ⟩ := rounds
  obtain ⟨remainderP, remainderQ⟩ := apply_modEq genuine n
  have coprime : secret.p.Coprime secret.q :=
    (Nat.coprime_primes genuine.p genuine.q).mpr genuine.distinct
  have moduloP : secret.apply n ^ secret.key.exponent ≡ n [MOD secret.p] :=
    (remainderP.pow _).trans (powMod_pow_modEq genuine.p roundP n)
  have moduloQ : secret.apply n ^ secret.key.exponent ≡ n [MOD secret.q] :=
    (remainderQ.pow _).trans (powMod_pow_modEq genuine.q roundQ n)
  have whole := (Nat.modEq_and_modEq_iff_modEq_mul coprime).mp ⟨moduloP, moduloQ⟩
  rw [factors] at whole
  have same : secret.key.apply (secret.apply n) ≡ n [MOD secret.key.modulus] :=
    (powMod_modEq _ _ _).trans whole
  have bound : secret.key.apply (secret.apply n) < secret.key.modulus :=
    powMod_lt (Nat.zero_lt_of_lt small) _ _
  exact same.eq_of_lt_of_lt bound small

example :
    let secret : Secret := ⟨⟨15, 3⟩, 3, 3, 5⟩
    secret.key.apply (secret.apply 7) = 7 := by
  intro secret
  have genuine : secret.Genuine := ⟨by decide, by decide, by decide⟩
  exact apply_apply (by decide) genuine (by decide)

theorem pad?_eq_none_iff {size : Nat} {message : Bytes} :
    pad? size message = none ↔ size < (digestHeader ++ sha256 message).length + minPadding := by
  simp [pad?]

/-- The first byte is zero, so that the number has one byte less than the modulus. -/
theorem pad?_lt {key : Key} {message : Bytes} {padded : Nat} (positive : 0 < key.modulus)
    (filled : pad? key.size message = some padded) : padded < key.modulus := by
  have fits : ¬key.size < (digestHeader ++ sha256 message).length + minPadding := by
    rw [← pad?_eq_none_iff, filled]
    nofun
  simp only [pad?, if_neg fits, Option.some.injEq] at filled
  generalize digestHeader ++ sha256 message = digest at fits filled
  let rest := 1 :: List.replicate (key.size - digest.length - 3) 0xFF ++ 0 :: digest
  have size : key.size = key.modulus.log2 / 8 + 1 := by
    unfold Key.size
    omega
  have length : rest.length = key.modulus.log2 / 8 := by
    simp only [rest, List.length_append, List.length_cons, List.length_replicate, minPadding] at fits ⊢
    omega
  calc padded = Bytes.toNat (0 :: rest) := filled.symm
    _ = Bytes.toNat rest := by simp [Bytes.toNat_cons]
    _ < 1 <<< (8 * rest.length) := Bytes.toNat_lt rest
    _ = 2 ^ (8 * (key.modulus.log2 / 8)) := by rw [length, Nat.one_shiftLeft]
    _ ≤ 2 ^ key.modulus.log2 := Nat.pow_le_pow_right (by decide) (Nat.mul_div_le _ _)
    _ ≤ key.modulus := Nat.log2_self_le positive.ne'

/-- A message is only left without a signature when it is too long for the key. -/
theorem sign_eq_error_iff (valid : secret.isValid = true) (genuine : secret.Genuine)
    {message : Bytes} {e : String} :
    sign secret message = .error e ↔
      secret.key.size < (digestHeader ++ sha256 message).length + minPadding ∧
        e = "message too long" := by
  rw [← pad?_eq_none_iff]
  unfold sign
  cases filled : pad? secret.key.size message with
  | none => simp [eq_comm]
  | some padded =>
    have undone := apply_apply valid genuine (pad?_lt (pos_of_isValid valid).1 filled)
    simp [undone]

end Ucan.Rsa
