import Mathlib.Tactic.IntervalCases
import Ucan.Encoding.Base64Url
import Ucan.Proofs.Except

/-!
Each byte string has exactly one base64 text: a text is accepted when it is the encoding of what it
decodes to.
-/

set_option autoImplicit false

namespace Ucan.Base64Url

open Ascii

theorem ext_bits {x y : UInt8}
    (same : ∀ i (within : i < 8), x.toBitVec[i] = y.toBitVec[i]) : x = y :=
  UInt8.toBitVec_inj.mp (BitVec.eq_of_getElem_eq same)

set_option maxRecDepth 4000 in
theorem lt_64_iff (v : UInt8) : v < 64 ↔ v.toBitVec[6] = false ∧ v.toBitVec[7] = false := by
  have all : ∀ n < 256, UInt8.ofNat n < 64 ↔
      (UInt8.ofNat n).toBitVec[6] = false ∧ (UInt8.ofNat n).toBitVec[7] = false := by decide
  simpa using all v.toNat v.toNat_lt

theorem low_four {w : UInt8} (zero : w &&& 0x0F = 0) (i : Nat) (within : i < 4) :
    w.toBitVec[i] = false := by
  have bit := congrArg (fun b : UInt8 => b.toBitVec.getLsbD i) zero
  interval_cases i <;> simpa using bit

theorem low_two {x : UInt8} (zero : x &&& 0x03 = 0) (i : Nat) (within : i < 2) :
    x.toBitVec[i] = false := by
  have bit := congrArg (fun b : UInt8 => b.toBitVec.getLsbD i) zero
  interval_cases i <;> simpa using bit

/-! The three bytes of a group from its four values. -/

theorem firstByte_values (a b : UInt8) :
    firstByte (a >>> 2) ((a &&& 0x03) <<< 4 ||| b >>> 4) = a := by
  refine ext_bits fun i within => ?_
  interval_cases i <;> simp [firstByte]

theorem secondByte_values (a b c : UInt8) :
    secondByte ((a &&& 0x03) <<< 4 ||| b >>> 4) ((b &&& 0x0F) <<< 2 ||| c >>> 6) = b := by
  refine ext_bits fun i within => ?_
  interval_cases i <;> simp [secondByte]

theorem thirdByte_values (b c : UInt8) :
    thirdByte ((b &&& 0x0F) <<< 2 ||| c >>> 6) (c &&& 0x3F) = c := by
  refine ext_bits fun i within => ?_
  interval_cases i <;> simp [thirdByte]

theorem zero_shift (k : UInt8) : (0 : UInt8) >>> k = 0 := by simp

theorem spare_four (a : UInt8) : (a &&& 0x03) <<< 4 &&& 0x0F = 0 := by
  refine ext_bits fun i within => ?_
  interval_cases i <;> simp

theorem spare_two (b : UInt8) : (b &&& 0x0F) <<< 2 &&& 0x03 = 0 := by
  refine ext_bits fun i within => ?_
  interval_cases i <;> simp

theorem values_lt (a b c : UInt8) :
    a >>> 2 < 64 ∧ (a &&& 0x03) <<< 4 ||| b >>> 4 < 64 ∧
      (b &&& 0x0F) <<< 2 ||| c >>> 6 < 64 ∧ c &&& 0x3F < 64 := by
  simp [lt_64_iff]

/-! The four values of a group from its three bytes. -/

theorem firstValue_bytes {v w : UInt8} (hv : v < 64) (hw : w < 64) :
    firstByte v w >>> 2 = v := by
  rw [lt_64_iff] at hv hw
  refine ext_bits fun i within => ?_
  interval_cases i <;> simp [firstByte, hv, hw]

theorem secondValue_bytes {w x : UInt8} (v : UInt8) (hw : w < 64) (hx : x < 64) :
    (firstByte v w &&& 0x03) <<< 4 ||| secondByte w x >>> 4 = w := by
  rw [lt_64_iff] at hw hx
  refine ext_bits fun i within => ?_
  interval_cases i <;> simp [firstByte, secondByte, hw, hx]

theorem thirdValue_bytes {x y : UInt8} (w : UInt8) (hx : x < 64) (hy : y < 64) :
    (secondByte w x &&& 0x0F) <<< 2 ||| thirdByte x y >>> 6 = x := by
  rw [lt_64_iff] at hx hy
  refine ext_bits fun i within => ?_
  interval_cases i <;> simp [secondByte, thirdByte, hx, hy]

theorem fourthValue_bytes {y : UInt8} (x : UInt8) (hy : y < 64) : thirdByte x y &&& 0x3F = y := by
  rw [lt_64_iff] at hy
  refine ext_bits fun i within => ?_
  interval_cases i <;> simp [thirdByte, hy]

-- A shorter last group stands for the whole one with zeros in place of what is missing.

theorem secondValue_last {w : UInt8} (v : UInt8) (hw : w < 64) (spare : w &&& 0x0F = 0) :
    (firstByte v w &&& 0x03) <<< 4 = w := by
  rw [lt_64_iff] at hw
  refine ext_bits fun i within => ?_
  interval_cases i <;> simp [firstByte, hw, low_four spare]

theorem thirdValue_last {x : UInt8} (w : UInt8) (hx : x < 64) (spare : x &&& 0x03 = 0) :
    (secondByte w x &&& 0x0F) <<< 2 = x := by
  rw [lt_64_iff] at hx
  refine ext_bits fun i within => ?_
  interval_cases i <;> simp [secondByte, hx, low_two spare]

/-! Symbols one by one. -/

theorem symbol_ascii {v : UInt8} (small : v < 64) :
    symbol v < 128 ∧ symbol v ≠ dot ∧ symbol v ≠ equals := by
  have all : ∀ n < 64, symbol (UInt8.ofNat n) < 128 ∧ symbol (UInt8.ofNat n) ≠ dot ∧
      symbol (UInt8.ofNat n) ≠ equals := by decide
  simpa using all v.toNat (UInt8.lt_iff_toNat_lt.mp small)

theorem valueAt_symbol {v : UInt8} (small : v < 64) (offset : Nat) :
    valueAt (symbol v) offset = .ok v := by
  rw [valueAt, value?_symbol small]

theorem symbol_of_valueAt {b v : UInt8} {offset : Nat} (known : valueAt b offset = .ok v) :
    symbol v = b ∧ v < 64 := by
  unfold valueAt at known
  split at known
  next found =>
    cases known
    exact symbol_of_value? found
  · cases known

theorem lastValues_symbols (start index : Nat) (values : List UInt8)
    (small : ∀ v ∈ values, v < 64) :
    lastValues start index none (values.map symbol) = .ok (values, false) := by
  induction values generalizing index with
  | nil => rfl
  | cons v rest ih =>
    have first := small v (by simp)
    have later := ih (index + 1) fun other member => small other (by simp [member])
    simp [lastValues, (symbol_ascii first).2.2, valueAt_symbol first, later, bind, Except.bind]

theorem padded_of_lastValues {start index first : Nat} {s : Bytes} {values : List UInt8}
    {padded : Bool} (read : lastValues start index (some first) s = .ok (values, padded)) :
    padded = true := by
  induction s generalizing index with
  | nil => cases read; rfl
  | cons b rest ih =>
    simp only [lastValues] at read
    split at read
    · split at read
      · cases read
      · exact ih read
    · cases read

theorem symbols_of_lastValues {start index : Nat} {s : Bytes} {values : List UInt8}
    (read : lastValues start index none s = .ok (values, false)) :
    s = values.map symbol ∧ ∀ v ∈ values, v < 64 := by
  induction s generalizing index values with
  | nil => cases read; simp
  | cons b rest ih =>
    simp only [lastValues] at read
    split at read
    · split at read
      · cases read
      · cases padded_of_lastValues read
    · cases known : valueAt b (start + index) with
      | error e => simp [known, bind, Except.bind] at read
      | ok v =>
        cases later : lastValues start (index + 1) none rest with
        | error e => simp [known, later, bind, Except.bind] at read
        | ok found =>
          obtain ⟨vs, padded⟩ := found
          simp only [known, later, bind, Except.bind, Except.ok.injEq, Prod.mk.injEq] at read
          obtain ⟨rfl, rfl⟩ := read
          obtain ⟨same, small⟩ := symbol_of_valueAt known
          obtain ⟨rfl, others⟩ := ih later
          exact ⟨by simp [same], by simpa using ⟨small, others⟩⟩

/-! Groups. -/

theorem decodeLast_symbols (start : Nat) (values : List UInt8) (small : ∀ v ∈ values, v < 64) :
    decodeLast start (values.map symbol) =
      match values with
      | [] => .ok []
      | [_] => .error (.invalidLength (start + 1))
      | [v, w] =>
        if w &&& 0x0F = 0 then .ok [firstByte v w]
        else .error (.invalidLastSymbol (symbol w) (start + 1))
      | [v, w, x] =>
        if x &&& 0x03 = 0 then .ok [firstByte v w, secondByte w x]
        else .error (.invalidLastSymbol (symbol x) (start + 2))
      | v :: w :: x :: y :: _ => .ok [firstByte v w, secondByte w x, thirdByte x y] := by
  rw [decodeLast, lastValues_symbols start 0 values small]
  match values with
  | [] => rfl
  | [_] => rfl
  | [_, _] => simp [bind, Except.bind]
  | [_, _, _] => simp [bind, Except.bind]
  | _ :: _ :: _ :: _ :: _ => simp [bind, Except.bind]

theorem symbols_of_decodeLast {start : Nat} {s b : Bytes} (read : decodeLast start s = .ok b) :
    ∃ values : List UInt8, s = values.map symbol ∧ ∀ v ∈ values, v < 64 := by
  rw [decodeLast] at read
  split at read
  next empty => exact ⟨[], by simpa using empty, by simp⟩
  obtain ⟨⟨values, padded⟩, found, read⟩ := bind_eq_ok.mp read
  dsimp only at read
  cases padded with
  | true => split at read <;> cases read
  | false => exact ⟨values, symbols_of_lastValues found⟩

theorem encode_of_decodeLast {start : Nat} {s b : Bytes} (read : decodeLast start s = .ok b)
    (short : s.length ≤ 4) : encode b = s := by
  obtain ⟨values, rfl, small⟩ := symbols_of_decodeLast read
  rw [decodeLast_symbols start values small] at read
  match values with
  | [] =>
    cases read
    rfl
  | [_] => cases read
  | [v, w] =>
    simp only [List.mem_cons, List.not_mem_nil, or_false, forall_eq_or_imp, forall_eq] at small
    dsimp only at read
    split at read <;> cases read
    next spare =>
      rw [encode, firstValue_bytes small.1 small.2, secondValue_last v small.2 spare]
      rfl
  | [v, w, x] =>
    simp only [List.mem_cons, List.not_mem_nil, or_false, forall_eq_or_imp, forall_eq] at small
    obtain ⟨hv, hw, hx⟩ := small
    dsimp only at read
    split at read <;> cases read
    next spare =>
      rw [encode, firstValue_bytes hv hw, secondValue_bytes v hw hx, thirdValue_last w hx spare]
      rfl
  | [v, w, x, y] =>
    simp only [List.mem_cons, List.not_mem_nil, or_false, forall_eq_or_imp, forall_eq] at small
    obtain ⟨hv, hw, hx, hy⟩ := small
    cases read
    rw [encode, firstValue_bytes hv hw, secondValue_bytes v hw hx, thirdValue_bytes w hx hy,
      fourthValue_bytes x hy]
    rfl
  | _ :: _ :: _ :: _ :: _ :: _ =>
    simp only [List.length_map, List.length_cons] at short
    omega

theorem encode_of_decodeFrom {start : Nat} {s b : Bytes} (read : decodeFrom start s = .ok b) :
    encode b = s := by
  induction start, s using decodeFrom.induct generalizing b with
  | case1 start p q r t e rest ih =>
    rw [decodeFrom] at read
    simp only [bind_eq_ok, Except.ok.injEq] at read
    obtain ⟨v, first, w, second, x, third, y, fourth, more, later, rfl⟩ := read
    obtain ⟨rfl, hv⟩ := symbol_of_valueAt first
    obtain ⟨rfl, hw⟩ := symbol_of_valueAt second
    obtain ⟨rfl, hx⟩ := symbol_of_valueAt third
    obtain ⟨rfl, hy⟩ := symbol_of_valueAt fourth
    rw [encode, firstValue_bytes hv hw, secondValue_bytes v hw hx, thirdValue_bytes w hx hy,
      fourthValue_bytes x hy, ih later]
  | case2 start s short =>
    have few : s.length ≤ 4 := by
      match s with
      | [] | [_] | [_, _] | [_, _, _] | [_, _, _, _] => simp
      | p :: q :: r :: t :: e :: rest => exact absurd rfl (short p q r t e rest)
    rw [decodeFrom] at read
    · exact encode_of_decodeLast read few
    · exact short

theorem exists_encode_cons (a : UInt8) (rest : Bytes) :
    ∃ first others, encode (a :: rest) = first :: others := by
  match rest with
  | [] => exact ⟨_, _, rfl⟩
  | [_] => exact ⟨_, _, rfl⟩
  | _ :: _ :: _ => exact ⟨_, _, rfl⟩

theorem decodeFrom_encode (start : Nat) (b : Bytes) : decodeFrom start (encode b) = .ok b := by
  induction b using encode.induct generalizing start with
  | case1 a b c rest ih =>
    obtain ⟨hv, hw, hx, hy⟩ := values_lt a b c
    have group := decodeLast_symbols start
      [a >>> 2, (a &&& 0x03) <<< 4 ||| b >>> 4, (b &&& 0x0F) <<< 2 ||| c >>> 6, c &&& 0x3F]
      (by simp [hv, hw, hx, hy])
    -- A group of four symbols at the end is read as the last one.
    cases rest with
    | nil =>
      simp only [firstByte_values, secondByte_values, thirdByte_values] at group
      exact group
    | cons d rest =>
      obtain ⟨first, others, later⟩ := exists_encode_cons d rest
      have tail := ih (start + 4)
      rw [later] at tail
      rw [encode, later, decodeFrom, valueAt_symbol hv, valueAt_symbol hw, valueAt_symbol hx,
        valueAt_symbol hy, tail]
      simp only [firstByte_values, secondByte_values, thirdByte_values, bind, Except.bind]
  | case2 a b =>
    obtain ⟨hv, hw, hx, -⟩ := values_lt a b 0
    -- The missing third byte counts as zero.
    have second := secondByte_values a b 0
    rw [zero_shift, UInt8.or_zero] at hx second
    have group := decodeLast_symbols start
      [a >>> 2, (a &&& 0x03) <<< 4 ||| b >>> 4, (b &&& 0x0F) <<< 2] (by simp [hv, hw, hx])
    simp only [firstByte_values, second, spare_two, if_true] at group
    exact group
  | case3 a =>
    obtain ⟨hv, hw, -⟩ := values_lt a 0 0
    have first := firstByte_values a 0
    rw [zero_shift, UInt8.or_zero] at hw first
    have group := decodeLast_symbols start [a >>> 2, (a &&& 0x03) <<< 4] (by simp [hv, hw])
    simp only [first, spare_four, if_true] at group
    exact group
  | case4 => rfl

theorem exists_symbols (b : Bytes) :
    ∃ values : List UInt8, encode b = values.map symbol ∧ ∀ v ∈ values, v < 64 := by
  induction b using encode.induct with
  | case1 a b c rest ih =>
    obtain ⟨values, later, small⟩ := ih
    have group := values_lt a b c
    exact ⟨a >>> 2 :: ((a &&& 0x03) <<< 4 ||| b >>> 4) :: ((b &&& 0x0F) <<< 2 ||| c >>> 6) ::
      (c &&& 0x3F) :: values, by simp [encode, later], by simpa [group] using small⟩
  | case2 a b =>
    have group := values_lt a b 0
    exact ⟨[a >>> 2, (a &&& 0x03) <<< 4 ||| b >>> 4, (b &&& 0x0F) <<< 2], rfl,
      by simpa [zero_shift] using group⟩
  | case3 a =>
    have group := values_lt a 0 0
    exact ⟨[a >>> 2, (a &&& 0x03) <<< 4], rfl, by simpa [zero_shift] using group⟩
  | case4 => exact ⟨[], rfl, by simp⟩

theorem ascii_of_mem_encode {x : UInt8} {b : Bytes} (member : x ∈ encode b) :
    x < 128 ∧ x ≠ dot ∧ ∃ v, value? x = some v := by
  obtain ⟨values, same, small⟩ := exists_symbols b
  rw [same] at member
  obtain ⟨v, inside, rfl⟩ := List.mem_map.mp member
  have plain := symbol_ascii (small v inside)
  exact ⟨plain.1, plain.2.1, v, value?_symbol (small v inside)⟩

theorem encode_eq_nil {b : Bytes} : encode b = [] ↔ b = [] := by
  cases b with
  | nil => simp [encode]
  | cons a rest =>
    obtain ⟨first, others, same⟩ := exists_encode_cons a rest
    simp [same]

theorem decode_encode (b : Bytes) : decode (encode b) = .ok b := by
  unfold decode
  split
  next last found =>
    obtain ⟨-, -, v, known⟩ := ascii_of_mem_encode (List.mem_of_getLast? found)
    rw [if_neg (by simp [known])]
    exact decodeFrom_encode 0 b
  next empty =>
    rw [List.getLast?_eq_none_iff, encode_eq_nil] at empty
    rw [empty]

theorem encode_of_decode {s b : Bytes} (read : decode s = .ok b) : encode b = s := by
  unfold decode at read
  split at read
  · split at read
    · cases read
    · exact encode_of_decodeFrom read
  next empty =>
    cases read
    rw [List.getLast?_eq_none_iff] at empty
    rw [empty, encode]

theorem decode_eq_ok_iff {s b : Bytes} : decode s = .ok b ↔ encode b = s := by
  constructor
  · exact encode_of_decode
  · rintro rfl
    exact decode_encode b

end Ucan.Base64Url
