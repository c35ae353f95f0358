import Ucan.Proofs.Encoding

/-!
Digits of one number and the bytes they stand for are one to one, zeros in front included. So no
two texts in base58 stand for the same bytes.
-/

set_option autoImplicit false

namespace Ucan

namespace Bytes

theorem head?_ofNatMin (n : Nat) : (ofNatMin n).head? ≠ some 0 := by
  intro first
  have nonzero := List.head?_dropWhile_not (· == 0) (ofNat ((n.log2 + 8) / 8) n)
  rw [show List.dropWhile _ _ = ofNatMin n from rfl, first] at nonzero
  cases nonzero

theorem toNat_dropWhile_zeros (b : Bytes) : toNat (b.dropWhile (· == 0)) = toNat b := by
  induction b with
  | nil => rfl
  | cons x b ih =>
    by_cases zero : x = 0
    next =>
      have front := toNat_zeros 1 b
      simp only [zero, List.dropWhile_cons, BEq.rfl, if_true, ih]
      exact front.symm
    next => simp [zero]

theorem toNat_ofNatMin (n : Nat) : toNat (ofNatMin n) = n := by
  have bits : n < Nat.pow 256 ((n.log2 + 8) / 8) := by
    have power : Nat.pow 256 ((n.log2 + 8) / 8) = Nat.pow 2 (8 * ((n.log2 + 8) / 8)) :=
      (Nat.pow_mul 2 8 _).symm
    rw [power]
    exact Nat.lt_of_lt_of_le Nat.lt_log2_self (Nat.pow_le_pow_right (by decide) (by omega))
  rw [ofNatMin, toNat_dropWhile_zeros, toNat_ofNat, Nat.mod_eq_of_lt bits]

end Bytes

namespace Positional

variable {base : Nat} {digits : List Nat}

theorem ofDigits_append_singleton (digits : List Nat) (d : Nat) :
    ofDigits base (digits ++ [d]) = base * ofDigits base digits + d := by
  simp [ofDigits, List.foldl_append]

theorem ofDigits_pos (large : 2 ≤ base) (some_digit : digits ≠ [])
    (leading : digits.head? ≠ some 0) : 0 < ofDigits base digits := by
  induction digits using List.reverseRecOn with
  | nil => exact absurd rfl some_digit
  | append_singleton digits d ih =>
    rw [ofDigits_append_singleton]
    cases digits with
    | nil =>
      have nonzero : d ≠ 0 := fun zero => leading (congrArg some zero)
      omega
    | cons first rest =>
      have front := ih (List.cons_ne_nil first rest) leading
      have := Nat.mul_pos (by omega : 0 < base) front
      omega

/-- The digits of the number that they write come out again, before those `done`. -/
theorem toDigits_ofDigits (large : 2 ≤ base) (small : ∀ d ∈ digits, d < base)
    (leading : digits.head? ≠ some 0) (done : List Nat) :
    toDigits base (ofDigits base digits) done = digits ++ done := by
  induction digits using List.reverseRecOn generalizing done with
  | nil =>
    rw [toDigits, dif_pos (.inl rfl)]
    rfl
  | append_singleton digits d ih =>
    have last : d < base := small d (by simp)
    have positive := ofDigits_pos large (by simp) leading
    have front : digits.head? ≠ some 0 := by
      cases digits with
      | nil => simp
      | cons first rest => exact leading
    rw [ofDigits_append_singleton] at positive ⊢
    have quotient : (base * ofDigits base digits + d) / base = ofDigits base digits := by
      rw [Nat.mul_add_div (by omega), Nat.div_eq_of_lt last, Nat.add_zero]
    have remainder : (base * ofDigits base digits + d) % base = d := by
      rw [Nat.mul_add_mod, Nat.mod_eq_of_lt last]
    rw [toDigits, dif_neg (by omega), quotient, remainder,
      ih (fun d member => small d (List.mem_append_left _ member)) front, List.append_assoc,
      List.singleton_append]

theorem encode_decode (large : 2 ≤ base) (small : ∀ d ∈ digits, d < base) :
    encode base (decode base digits) = digits := by
  obtain ⟨count, tail, rfl, leading⟩ : ∃ count tail, digits = List.replicate count 0 ++ tail ∧
    tail.head? ≠ some 0 := exists_zeros digits
  have bytes := Bytes.head?_ofNatMin (ofDigits base tail)
  rw [decode, takeWhile_zeros count leading, ofDigits_zeros, List.map_replicate, encode,
    takeWhile_zeros count bytes, Bytes.toNat_zeros, Bytes.toNat_ofNatMin, List.map_replicate,
    toDigits_ofDigits large (fun d member => small d (List.mem_append_right _ member)) leading,
    List.append_nil]

end Positional

namespace Multibase

namespace Base

variable {base : Base} {c : Char} {d : Nat} {text : List Char} {digits : List Nat}

theorem symbolAt_of_value? (exact : base.ignoresCase = false) (known : base.value? c = some d) :
    d < base.alphabet.length ∧ symbolAt base.alphabet d = c := by
  rw [value?, exact, if_neg (by decide), List.idxOf?_eq_some_iff] at known
  have ⟨within, symbol, _⟩ := known
  refine ⟨within, ?_⟩
  rw [symbolAt, List.getD_eq_getElem?_getD, List.getElem?_eq_getElem within, Option.getD_some,
    symbol]

theorem symbols_of_values? (exact : base.ignoresCase = false)
    (known : base.values? text = some digits) :
    (∀ d ∈ digits, d < base.alphabet.length) ∧ digits.map (symbolAt base.alphabet) = text := by
  induction text generalizing digits with
  | nil =>
    cases known
    exact ⟨List.forall_mem_nil _, rfl⟩
  | cons c text ih =>
    simp only [values?, List.mapM_cons, bind, Option.bind_eq_some_iff] at known
    obtain ⟨d, first, rest, others, made⟩ := known
    cases made
    obtain ⟨small, symbol⟩ := symbolAt_of_value? exact first
    obtain ⟨allSmall, symbols⟩ := ih others
    exact ⟨List.forall_mem_cons.mpr ⟨small, allSmall⟩, by rw [List.map_cons, symbol, symbols]⟩

end Base

theorem encodeBase58_of_decode? {text : String} {b : Bytes}
    (read : decode? text = some (.base58Btc, b)) : encodeBase58 b = text := by
  unfold decode? at read
  split at read
  next => cases read
  next c rest chars =>
    simp only [bind, Option.bind_eq_some_iff] at read
    obtain ⟨base, named, b, decoded, made⟩ := read
    cases made
    have mark : Base.base58Btc.code = c := by simpa using List.find?_some named
    simp only [Base.decode?, Base.form, bind, Option.bind_eq_some_iff] at decoded
    obtain ⟨digits, values, made⟩ := decoded
    cases made
    obtain ⟨small, symbols⟩ := Base.symbols_of_values? rfl values
    have size : Base.base58Btc.alphabet.length = 58 := by decide
    rw [size] at small
    apply String.toList_inj.mp
    rw [encodeBase58, size, Positional.encode_decode (by decide) small, symbols, mark,
      String.toList_ofList, chars]

end Multibase

end Ucan
