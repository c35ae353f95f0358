import Mathlib.Data.List.Induction
import Ucan.Encoding.Multibase

/-!
Bytes that are written as a number come back from its digits: from all of it with the zero bytes in
front, and from groups of bits with the last one filled up.
-/

set_option autoImplicit false

namespace Ucan

namespace Bytes

theorem ofNat_zero (len : Nat) : ofNat len 0 = List.replicate len 0 := by
  induction len with
  | zero => rfl
  | succ len ih => rw [ofNat, Nat.zero_div, ih, List.replicate_succ']; rfl

/-- More digits than there are bytes give zeros in front. -/
theorem ofNat_toNat (spare : Nat) (b : Bytes) :
    ofNat (spare + b.length) (toNat b) = List.replicate spare 0 ++ b := by
  induction b using List.reverseRecOn with
  | nil => simpa [toNat] using ofNat_zero spare
  | append_singleton b x ih =>
    have high : (256 * toNat b + x.toNat) / 256 = toNat b := by
      have := x.toNat_lt
      omega
    have low : UInt8.ofNat (256 * toNat b + x.toNat) = x := by
      apply UInt8.toNat_inj.mp
      have := x.toNat_lt
      simp only [UInt8.toNat_ofNat']
      omega
    rw [toNat_append_singleton, List.length_append, List.length_singleton, ← Nat.add_assoc, ofNat,
      high, low, ih, List.append_assoc]

theorem toNat_lt (b : Bytes) : toNat b < 1 <<< (8 * b.length) := by
  induction b using List.reverseRecOn with
  | nil => decide
  | append_singleton b x ih =>
    rw [toNat_append_singleton, List.length_append, List.length_singleton, Nat.mul_add,
      Nat.shiftLeft_add]
    have := x.toNat_lt
    rw [Nat.shiftLeft_eq _ 8]
    omega

theorem toNat_cons (x : UInt8) (b : Bytes) :
    toNat (x :: b) = x.toNat <<< (8 * b.length) + toNat b := by
  induction b using List.reverseRecOn with
  | nil => simp [toNat]
  | append_singleton b y ih =>
    rw [← List.cons_append, toNat_append_singleton, toNat_append_singleton, ih, List.length_append,
      List.length_singleton, Nat.mul_add 8, Nat.shiftLeft_add, Nat.shiftLeft_eq _ (8 * 1)]
    omega

theorem toNat_zeros (count : Nat) (b : Bytes) : toNat (List.replicate count 0 ++ b) = toNat b := by
  induction count with
  | zero => rfl
  | succ count ih =>
    rw [List.replicate_succ, List.cons_append, toNat_cons, ih]
    simp

theorem length_le_digits {x : UInt8} (nonzero : x ≠ 0) (b : Bytes) :
    (x :: b).length ≤ ((toNat (x :: b)).log2 + 8) / 8 := by
  have positive : 1 ≤ x.toNat := Nat.one_le_iff_ne_zero.mpr fun none =>
    nonzero (UInt8.toNat_inj.mp none)
  have lower : 1 <<< (8 * b.length) ≤ toNat (x :: b) := by
    rw [toNat_cons, Nat.shiftLeft_eq x.toNat, Nat.shiftLeft_eq]
    exact Nat.le_add_right_of_le (Nat.mul_le_mul_right _ positive)
  rw [Nat.shiftLeft_eq, Nat.one_mul] at lower
  have bits := (Nat.le_log2 (by have := Nat.two_pow_pos (8 * b.length); omega)).mpr lower
  rw [List.length_cons]
  omega

theorem ofNatMin_toNat {b : Bytes} (leading : b.head? ≠ some 0) : ofNatMin (toNat b) = b := by
  cases b with
  | nil => rfl
  | cons x b =>
    have nonzero : x ≠ 0 := fun same => leading (congrArg some same)
    have enough := length_le_digits nonzero b
    obtain ⟨spare, digits⟩ := Nat.exists_eq_add_of_le' enough
    rw [ofNatMin, digits, ofNat_toNat, List.dropWhile_append]
    simp [nonzero]

end Bytes

namespace Positional

variable {base : Nat}

theorem foldl_toDigits (n : Nat) (done : List Nat) (large : 2 ≤ base) :
    (toDigits base n done).foldl (fun n d => base * n + d) 0 =
      done.foldl (fun n d => base * n + d) n := by
  induction n, done using toDigits.induct base with
  | case1 n done stop =>
    rw [toDigits, dif_pos stop]
    obtain rfl : n = 0 := by omega
    rfl
  | case2 n done more ih =>
    rw [toDigits, dif_neg more, ih, List.foldl_cons, Nat.div_add_mod]

theorem lt_of_mem_toDigits {n : Nat} {done : List Nat} (large : 2 ≤ base) {d : Nat}
    (member : d ∈ toDigits base n done) : d < base ∨ d ∈ done := by
  induction n, done using toDigits.induct base with
  | case1 n done stop =>
    rw [toDigits, dif_pos stop] at member
    exact .inr member
  | case2 n done more ih =>
    rw [toDigits, dif_neg more] at member
    rcases ih member with small | member
    · exact .inl small
    rcases List.mem_cons.mp member with rfl | member
    · exact .inl (Nat.mod_lt _ (by omega))
    · exact .inr member

theorem head?_toDigits (n : Nat) {done : List Nat} (large : 2 ≤ base)
    (leading : n = 0 → done.head? ≠ some 0) : (toDigits base n done).head? ≠ some 0 := by
  induction n, done using toDigits.induct base with
  | case1 n done stop =>
    rw [toDigits, dif_pos stop]
    exact leading (by omega)
  | case2 n done more ih =>
    rw [toDigits, dif_neg more]
    apply ih
    intro last same
    have small : n % base = 0 := Option.some.inj same
    have := Nat.div_add_mod n base
    simp only [last, small] at this
    omega

theorem ofDigits_zeros (count : Nat) (digits : List Nat) :
    ofDigits base (List.replicate count 0 ++ digits) = ofDigits base digits := by
  induction count with
  | zero => rfl
  | succ count ih =>
    rw [List.replicate_succ, List.cons_append, ← ih]
    simp [ofDigits]

section

variable {α : Type} {zero : α}

theorem exists_zeros [DecidableEq α] (s : List α) :
    ∃ count tail, s = List.replicate count zero ++ tail ∧ tail.head? ≠ some zero := by
  induction s with
  | nil => exact ⟨0, [], rfl, nofun⟩
  | cons x s ih =>
    by_cases same : x = zero
    · obtain ⟨count, tail, split, leading⟩ := ih
      refine ⟨count + 1, tail, ?_, leading⟩
      rw [same, split, List.replicate_succ, List.cons_append]
    · exact ⟨0, x :: s, rfl, fun first => same (Option.some.inj first)⟩

theorem takeWhile_zeros [DecidableEq α] (count : Nat) {tail : List α} (leading : tail.head? ≠ some zero) :
    (List.replicate count zero ++ tail).takeWhile (· == zero) = List.replicate count zero := by
  have none : tail.takeWhile (· == zero) = [] := by
    cases tail with
    | nil => rfl
    | cons x tail =>
      have other : x ≠ zero := fun same => leading (congrArg some same)
      simp [other]
  rw [List.takeWhile_append_of_pos (by simp), none, List.append_nil]

end

theorem decode_encode (large : 2 ≤ base) (b : Bytes) : decode base (encode base b) = b := by
  obtain ⟨count, tail, rfl, leading⟩ : ∃ count tail, b = List.replicate count 0 ++ tail ∧
    tail.head? ≠ some 0 := exists_zeros b
  have digits : (toDigits base (Bytes.toNat tail) []).head? ≠ some 0 :=
    head?_toDigits _ large (by simp)
  rw [encode, takeWhile_zeros count leading, Bytes.toNat_zeros, decode, List.map_replicate,
    takeWhile_zeros count digits, ofDigits_zeros, ofDigits, foldl_toDigits _ _ large,
    List.foldl_nil, Bytes.ofNatMin_toNat leading, List.map_replicate]

theorem lt_of_mem_encode (large : 2 ≤ base) {b : Bytes} {d : Nat} (member : d ∈ encode base b) :
    d < base := by
  rcases List.mem_append.mp member with zero | digit
  · obtain ⟨_, _, rfl⟩ := List.mem_map.mp zero
    omega
  · exact (lt_of_mem_toDigits large digit).resolve_right List.not_mem_nil

end Positional

namespace BitGroups

theorem length_digits (base count n : Nat) : (digits base count n).length = count := by
  induction count generalizing n with
  | zero => rfl
  | succ count ih => simp [digits, ih]

theorem lt_of_mem_digits {base count n d : Nat} (positive : 0 < base)
    (member : d ∈ digits base count n) : d < base := by
  induction count generalizing n with
  | zero => cases member
  | succ count ih =>
    rcases List.mem_append.mp member with front | last
    · exact ih front
    · rw [List.mem_singleton.mp last]
      exact Nat.mod_lt _ positive

theorem ofDigits_digits (base count n : Nat) :
    Positional.ofDigits base (digits base count n) = n % Nat.pow base count := by
  induction count generalizing n with
  | zero => exact (Nat.mod_one n).symm
  | succ count ih =>
    simp only [Positional.ofDigits, Nat.pow_eq, digits, List.foldl_append, List.foldl_cons,
      List.foldl_nil] at ih ⊢
    rw [ih, Nat.pow_succ', Nat.mod_mul, Nat.add_comm]

theorem decode?_encode {width : Nat} (positive : 0 < width) (small : width ≤ 8) (b : Bytes) :
    decode? width (encode width b) = some b := by
  have room : ∃ count spare, spare < width ∧ count * width = 8 * b.length + spare ∧
      count = (8 * b.length + width - 1) / width := by
    have split := Nat.div_add_mod' (8 * b.length + width - 1) width
    have below := Nat.mod_lt (8 * b.length + width - 1) positive
    -- The last group is filled up with fewer bits than it has.
    exact ⟨_, width - 1 - (8 * b.length + width - 1) % width, by omega, by omega, rfl⟩
  obtain ⟨count, spare, fewer, bits, filled⟩ := room
  have written : encode width b = digits (1 <<< width) count (Bytes.toNat b <<< spare) := by
    rw [encode, ← filled, bits, Nat.add_sub_cancel_left]
  have total : width * count = 8 * b.length + spare := by rw [Nat.mul_comm, bits]
  have value : Positional.ofDigits (1 <<< width) (encode width b) = Bytes.toNat b <<< spare := by
    rw [written, ofDigits_digits]
    apply Nat.mod_eq_of_lt
    have below := Bytes.toNat_lt b
    simp only [Nat.shiftLeft_eq, Nat.one_mul, Nat.pow_eq] at below ⊢
    rw [← Nat.pow_mul, total, Nat.pow_add]
    exact Nat.mul_lt_mul_of_pos_right below (Nat.two_pow_pos spare)
  have left : (8 * b.length + spare) % 8 = spare := by omega
  have whole : (8 * b.length + spare) / 8 = b.length := by omega
  have none : Bytes.toNat b <<< spare % (1 <<< spare) = 0 := by
    rw [Nat.shiftLeft_eq, Nat.shiftLeft_eq, Nat.one_mul, Nat.mul_mod_left]
  have bytes := Bytes.ofNat_toNat 0 b
  rw [Nat.zero_add, List.replicate_zero, List.nil_append] at bytes
  rw [decode?, value, written, length_digits, total, left, whole]
  simp only [fewer, none, true_and, if_true, Nat.shiftLeft_shiftRight, bytes]

theorem lt_of_mem_encode {width : Nat} {b : Bytes} {d : Nat} (member : d ∈ encode width b) :
    d < 1 <<< width :=
  lt_of_mem_digits (by rw [Nat.shiftLeft_eq, Nat.one_mul]; exact Nat.two_pow_pos width) member

end BitGroups

namespace Multibase

theorem values?_map_symbolAt {base : Base} {digits : List Nat}
    (known : ∀ d ∈ digits, base.value? (symbolAt base.alphabet d) = some d) :
    base.values? (digits.map (symbolAt base.alphabet)) = some digits := by
  induction digits with
  | nil => rfl
  | cons d digits ih =>
    rw [List.forall_mem_cons] at known
    rw [Base.values?] at ih ⊢
    rw [List.map_cons, List.mapM_cons, known.1, ih known.2]
    rfl

theorem decode?_ofList {base : Base} {text : List Char} {b : Bytes}
    (read : base.decode? text = some b) :
    decode? (String.ofList (base.code :: text)) = some (base, b) := by
  have known : Base.ofCode? base.code = some base := by cases base <;> decide
  simp only [decode?, String.toList_ofList, known, read, bind, Option.bind]

theorem decode?_encodeBase58 (b : Bytes) : decode? (encodeBase58 b) = some (.base58Btc, b) := by
  have each : ∀ d < 58, Base.base58Btc.value? (symbolAt Base.base58Btc.alphabet d) = some d := by
    decide
  have size : Base.base58Btc.alphabet.length = 58 := by decide
  have values : Base.base58Btc.values?
      ((Positional.encode 58 b).map (symbolAt Base.base58Btc.alphabet)) = some _ :=
    values?_map_symbolAt fun d member => each d (Positional.lt_of_mem_encode (by decide) member)
  apply decode?_ofList
  simp only [Base.decode?, Base.form, values, size, bind, Option.bind]
  rw [Positional.decode_encode (by decide)]

theorem decode?_encodeBase32 (b : Bytes) : decode? (encodeBase32 b) = some (.base32, b) := by
  have each : ∀ d < 32, Base.base32.value? (symbolAt Base.base32.alphabet d) = some d := by
    decide
  have values : Base.base32.values?
      ((BitGroups.encode 5 b).map (symbolAt Base.base32.alphabet)) = some _ :=
    values?_map_symbolAt fun d member => each d (BitGroups.lt_of_mem_encode member)
  apply decode?_ofList
  simp only [Base.decode?, Base.form, values, bind, Option.bind]
  exact BitGroups.decode?_encode (by decide) (by decide) b

/-- Nothing but the base's own symbols stands in what is written. -/
theorem mem_symbols {alphabet : List Char} {digits : List Nat} {c : Char}
    (small : ∀ d ∈ digits, d < alphabet.length)
    (member : c ∈ digits.map (symbolAt alphabet)) : c ∈ alphabet := by
  obtain ⟨d, inside, rfl⟩ := List.mem_map.mp member
  rw [symbolAt, List.getD_eq_getElem?_getD, List.getElem?_eq_getElem (small d inside)]
  exact List.getElem_mem _

theorem mem_encodeBase58 {b : Bytes} {c : Char} (member : c ∈ (encodeBase58 b).toList) :
    c ∈ Base.base58Btc.alphabet := by
  rw [encodeBase58, String.toList_ofList] at member
  rcases List.mem_cons.mp member with rfl | member
  · decide
  · exact mem_symbols (fun d inside => Positional.lt_of_mem_encode (by decide) inside) member

theorem mem_encodeBase32 {b : Bytes} {c : Char} (member : c ∈ (encodeBase32 b).toList) :
    c ∈ Base.base32.alphabet := by
  rw [encodeBase32, String.toList_ofList] at member
  rcases List.mem_cons.mp member with rfl | member
  · decide
  · exact mem_symbols (fun d inside => BitGroups.lt_of_mem_encode inside) member

end Multibase

end Ucan
