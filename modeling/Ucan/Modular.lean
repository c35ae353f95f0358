/-!
Residues modulo a number, powers by repeated squaring, and numbers put together from what they are
modulo two others. Main statements: `powMod` is the remainder of the power, and `combine?` gives a
number with both remainders.
-/

set_option autoImplicit false

namespace Ucan

/-- `n` copies of `a` put together, by doubling. -/
def times {α : Type} (op : α → α → α) (one : α) (a : α) (n : Nat) : α :=
  if n = 0 then one
  else
    let half := times op one a (n / 2)
    if n % 2 = 0 then op half half else op (op half half) a
termination_by n

section times

variable {α β : Type} {op : α → α → α} {one : α}

@[simp] theorem times_zero (a : α) : times op one a 0 = one := by
  rw [times]
  simp

theorem times_of_ne_zero (a : α) {n : Nat} (h : n ≠ 0) :
    times op one a n =
      if n % 2 = 0 then op (times op one a (n / 2)) (times op one a (n / 2))
      else op (op (times op one a (n / 2)) (times op one a (n / 2))) a := by
  rw [times]
  simp [h]

/-- A map that keeps the operation keeps what is put together with it. -/
theorem map_times {op' : β → β → β} (f : α → β) (h : ∀ x y, f (op x y) = op' (f x) (f y))
    (a : α) (n : Nat) : f (times op one a n) = times op' (f one) (f a) n := by
  induction n using Nat.strongRecOn with
  | ind n ih =>
    by_cases hn : n = 0
    · simp [hn]
    · rw [times_of_ne_zero a hn, times_of_ne_zero (f a) hn, ← ih (n / 2) (by omega)]
      split <;> simp [h]

theorem times_mul_eq_pow (a n : Nat) : times (· * ·) 1 a n = Nat.pow a n := by
  induction n using Nat.strongRecOn with
  | ind n ih =>
    by_cases hn : n = 0
    · simp [hn]
    · simp only [Nat.pow_eq] at ih ⊢
      rw [times_of_ne_zero a hn, ih (n / 2) (by omega), ← Nat.pow_add]
      split
      · congr 1
        omega
      · rw [← Nat.pow_succ]
        congr 1
        omega

end times

def powMod (m b e : Nat) : Nat := times (fun x y => x * y % m) (1 % m) (b % m) e

theorem powMod_eq (m b e : Nat) : powMod m b e = Nat.pow b e % m := by
  have h : times (· * ·) 1 b e % m = times (fun x y => x * y % m) (1 % m) (b % m) e :=
    map_times (· % m) (fun x y => Nat.mul_mod x y m) b e
  rw [powMod, ← h, times_mul_eq_pow]

/-- Euclid's algorithm on two numbers that are `x` and `y` times some third one, up to multiples of
a modulus: how many times it their greatest common divisor is. -/
def bezout (r s : Nat) (x y : Int) : Int :=
  if s = 0 then x else bezout s (r % s) y (x - (r / s : Nat) * y)
termination_by s
decreasing_by exact Nat.mod_lt _ (Nat.pos_of_ne_zero ‹_›)

theorem dvd_bezout_mul_sub {m a : Int} {r s : Nat} {x y : Int} (hx : m ∣ x * a - r)
    (hy : m ∣ y * a - s) : m ∣ bezout r s x y * a - Nat.gcd r s := by
  induction r, s, x, y using bezout.induct with
  | case1 r x y => simpa [bezout] using hx
  | case2 r s x y hs ih =>
    rw [bezout, if_neg hs, Nat.gcd_comm, Nat.gcd_rec]
    rw [Nat.gcd_comm] at ih
    refine ih hy ?_
    obtain ⟨u, hu⟩ := hx
    obtain ⟨v, hv⟩ := hy
    refine ⟨u - (r / s : Nat) * v, ?_⟩
    have h : (r : Int) = (s : Int) * ((r / s : Nat) : Int) + ((r % s : Nat) : Int) := by
      exact_mod_cast (Nat.div_add_mod r s).symm
    generalize ((r / s : Nat) : Int) = q at *
    generalize ((r % s : Nat) : Int) = t at *
    grind

def inverse? (m a : Nat) : Option Nat :=
  if Nat.gcd a m = 1 then some (bezout a m 1 0 % m).toNat else none

theorem mul_of_inverse? {m a b : Nat} (hm : 0 < m) (h : inverse? m a = some b) :
    a * b % m = 1 % m := by
  unfold inverse? at h
  split at h
  · rename_i coprime
    cases h
    have hd := dvd_bezout_mul_sub (m := m) (a := a) (r := a) (s := m) (x := 1) (y := 0)
      (by simp) (by simp)
    rw [coprime] at hd
    have hn : 0 ≤ bezout a m 1 0 % (m : Int) := Int.emod_nonneg _ (by omega)
    have key : ((a * (bezout a m 1 0 % (m : Int)).toNat : Nat) : Int) % m = 1 % m := by
      rw [Int.natCast_mul, Int.toNat_of_nonneg hn, Int.mul_comm, Int.mul_emod, Int.emod_emod,
        ← Int.mul_emod]
      exact Int.emod_eq_emod_iff_emod_sub_eq_zero.mpr (Int.emod_eq_zero_of_dvd hd)
    exact_mod_cast key
  · simp at h

/-- The number below `p * q` that is the one number modulo `p` and the other modulo `q`. -/
def combine? (p q a b : Nat) : Option Nat :=
  (inverse? p q).map fun i => (a + (p - b % p)) * i % p * q + b

theorem mod_of_combine? {p q a b n : Nat} (hp : 0 < p) (h : combine? p q a b = some n) :
    n % p = a % p ∧ n % q = b % q := by
  obtain ⟨i, hi, rfl⟩ := Option.map_eq_some_iff.mp h
  constructor
  · have key : (a + (p - b % p)) * i % p * q % p = (a + (p - b % p)) % p := by
      rw [Nat.mod_mul_mod, Nat.mul_assoc, Nat.mul_comm i q, Nat.mul_mod, mul_of_inverse? hp hi,
        Nat.mul_mod_mod, Nat.mul_one]
      simp
    have hb : p - b % p + b = p * (b / p + 1) := by
      have := Nat.mod_lt b hp
      have := Nat.div_add_mod b p
      rw [Nat.mul_add]
      omega
    rw [Nat.add_mod, key, ← Nat.add_mod, Nat.add_assoc, hb, Nat.add_mul_mod_self_left]
  · simp [Nat.add_mod, Nat.mul_mod]

structure Residue (m : Nat) where
  val : Nat
  reduced : val % m = val
  deriving DecidableEq

namespace Residue

variable {m : Nat}

def ofNat (n : Nat) : Residue m := ⟨n % m, Nat.mod_mod n m⟩

instance (n : Nat) : OfNat (Residue m) n := ⟨ofNat n⟩

instance : Add (Residue m) := ⟨fun a b => ofNat (a.val + b.val)⟩

instance : Mul (Residue m) := ⟨fun a b => ofNat (a.val * b.val)⟩

instance : Neg (Residue m) := ⟨fun a => ofNat (m - a.val)⟩

instance : Sub (Residue m) := ⟨fun a b => ofNat (a.val + (m - b.val))⟩

def pow (a : Residue m) (e : Nat) : Residue m := ofNat (powMod m a.val e)

/-- The inverse modulo a prime; zero has none, and gives zero. -/
def inverse (a : Residue m) : Residue m := pow a (m - 2)

end Residue

end Ucan
