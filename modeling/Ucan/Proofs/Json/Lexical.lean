import Ucan.Json.Lexical
import Ucan.Proofs.Ascii

/-!
Words, strings and integers as they are printed are read back, and what follows is left.
-/

set_option autoImplicit false

namespace Ucan

namespace Ascii

theorem decimal_ne_nil (n : Nat) : decimal n ≠ [] := by
  rw [decimal]
  split <;> simp

theorem head?_decimal_ne_zero {n : Nat} (positive : n ≠ 0) : (decimal n).head? ≠ some zero := by
  induction n using decimal.induct with
  | case1 n small =>
    rw [decimal, if_pos small]
    intro leading
    have value := digitValue_digit n
    rw [Option.some.inj leading] at value
    exact positive (by simpa [digitValue, Nat.mod_eq_of_lt small] using value.symm)
  | case2 n large ih =>
    rw [decimal, if_neg large, List.head?_append, Option.or_of_isSome]
    · exact ih (by omega)
    · exact List.isSome_head?.mpr (decimal_ne_nil _)

theorem length_decimal_zero : (decimal 0).length = 1 := by
  rw [decimal]
  rfl

end Ascii

namespace Json

open Ascii

/-- Nothing of what follows a value belongs to it. -/
def Ends (rest : Bytes) : Prop :=
  ∀ b ∈ rest.head?, b = comma ∨ b = closeBracket ∨ b = closeBrace

theorem ends_nil : Ends [] := nofun

theorem ends_comma (rest : Bytes) : Ends (comma :: rest) := by simp [Ends]

theorem ends_closeBracket (rest : Bytes) : Ends (closeBracket :: rest) := by simp [Ends]

theorem ends_closeBrace (rest : Bytes) : Ends (closeBrace :: rest) := by simp [Ends]

theorem first?_cons {b : UInt8} (visible : isSpace b = false) (t : Bytes) :
    first? (b :: t) = some (b, ⟨t, Nat.lt_succ_self _⟩) := by
  simp [first?, visible]

theorem takeWord_append (word rest : Bytes) :
    ∃ h, takeWord word (word ++ rest) = .ok ⟨rest, h⟩ := by
  induction word with
  | nil => exact ⟨_, rfl⟩
  | cons c word ih =>
    obtain ⟨h, taken⟩ := ih
    refine ⟨Nat.le_succ_of_le h, ?_⟩
    simp only [List.cons_append, takeWord, if_true, taken]
    rfl

/-! ## Strings -/

theorem utf8Char_toNat {b : UInt8} (ascii : b < 128) : utf8Char b.toNat = [b] :=
  utf8EncodeChar_ofNat ascii

theorem takeUnit_hexDigits {n : Nat} (small : n < 256) (s : Bytes) :
    ∃ h, takeUnit (zero :: zero :: hexDigit (n / 16) :: hexDigit (n % 16) :: s) =
      .ok (n, ⟨s, h⟩) := by
  have none : hexValue? zero = some 0 := by decide
  have high : hexValue? (hexDigit (n / 16)) = some (n / 16) := hexValue?_hexDigit (by omega)
  have low : hexValue? (hexDigit (n % 16)) = some (n % 16) := hexValue?_hexDigit (by omega)
  have value : ((0 * 16 + 0) * 16 + n / 16) * 16 + n % 16 = n := by omega
  refine ⟨by simp only [List.length_cons]; omega, ?_⟩
  simp only [takeUnit, none, high, low, value]

theorem takeUnicode_control {b : UInt8} (control : b < 0x20) (s : Bytes) :
    ∃ h, takeUnicode (zero :: zero :: hexDigit (b.toNat / 16) :: hexDigit (b.toNat % 16) :: s) =
      .ok ([b], ⟨s, h⟩) := by
  have small : b.toNat < 32 := UInt8.lt_iff_toNat_lt.mp control
  obtain ⟨h, unit⟩ := takeUnit_hexDigits (n := b.toNat) (by omega) s
  have trailing : isTrailingUnit b.toNat = false := by simp [isTrailingUnit]; omega
  have leading : isLeadingUnit b.toNat = false := by simp [isLeadingUnit]; omega
  have ascii : b < 128 := UInt8.lt_iff_toNat_lt.mpr (Nat.lt_trans small (by decide))
  refine ⟨h, ?_⟩
  simp [takeUnicode, unit, bind, Except.bind, trailing, leading, utf8Char_toNat ascii]

theorem takeEscape_simple {b c : UInt8} (escape : simpleEscape? c = some b) (s : Bytes) :
    ∃ h, takeEscape ([c] ++ s) = .ok ([b], ⟨s, h⟩) :=
  ⟨Nat.lt_succ_self _, by simp only [List.singleton_append, takeEscape, escape]⟩

/-- A byte stands for itself or is written as an escape that is read as it. -/
theorem escapeByte_cases (b : UInt8) :
    (b ≠ quote ∧ b ≠ backslash ∧ ¬ b < 0x20 ∧ escapeByte b = [b]) ∨
      ∃ code, escapeByte b = backslash :: code ∧
        ∀ s, ∃ h, takeEscape (code ++ s) = .ok ([b], ⟨s, h⟩) := by
  by_cases isQuote : b = quote
  · subst isQuote
    exact .inr ⟨[quote], rfl, takeEscape_simple (by decide)⟩
  by_cases isBackslash : b = backslash
  · subst isBackslash
    exact .inr ⟨[backslash], rfl, takeEscape_simple (by decide)⟩
  by_cases control : b < 0x20
  · right
    unfold escapeByte
    rw [if_neg isQuote, if_neg isBackslash, if_pos control]
    -- Five control characters have an escape of their own.
    split
    next same => exact ⟨_, rfl, takeEscape_simple (same ▸ by decide)⟩
    split
    next same => exact ⟨_, rfl, takeEscape_simple (same ▸ by decide)⟩
    split
    next same => exact ⟨_, rfl, takeEscape_simple (same ▸ by decide)⟩
    split
    next same => exact ⟨_, rfl, takeEscape_simple (same ▸ by decide)⟩
    split
    next same => exact ⟨_, rfl, takeEscape_simple (same ▸ by decide)⟩
    refine ⟨_, rfl, fun s => ?_⟩
    obtain ⟨h, taken⟩ := takeUnicode_control control s
    have unnamed : simpleEscape? 0x75 = none := by decide
    refine ⟨Nat.lt_succ_of_lt h, ?_⟩
    simp only [List.cons_append, List.nil_append, takeEscape, unnamed, if_true, taken]
    rfl
  · left
    have plain : escapeByte b = [b] := by
      have above : ∀ c : UInt8, c < 0x20 → b ≠ c := fun c below same => control (same ▸ below)
      simp [escapeByte, isQuote, isBackslash, control, above 0x08 (by decide),
        above tab (by decide), above newline (by decide), above 0x0C (by decide),
        above carriageReturn (by decide)]
    exact ⟨isQuote, isBackslash, control, plain⟩

theorem takeStringFrom_escapeByte {whole : Bytes} (b : UInt8) (done s : Bytes)
    (h : (escapeByte b ++ s).length ≤ whole.length) :
    ∃ h' : s.length ≤ whole.length, takeStringFrom done (escapeByte b ++ s) h =
      takeStringFrom (b :: done) s h' := by
  rcases escapeByte_cases b with ⟨noQuote, noBackslash, noControl, plain⟩ | ⟨code, escaped, taken⟩
  · have within : s.length ≤ whole.length := by
      simp only [plain, List.length_append, List.length_cons] at h
      omega
    refine ⟨within, ?_⟩
    simp only [plain, List.singleton_append]
    rw [takeStringFrom, if_neg noQuote, if_neg noBackslash, if_neg noControl]
  · have within : s.length ≤ whole.length := by
      simp only [List.length_append] at h
      omega
    obtain ⟨_, taken⟩ := taken s
    refine ⟨within, ?_⟩
    simp only [escaped, List.cons_append]
    rw [takeStringFrom, if_neg (by decide), if_pos rfl]
    simp only [taken, List.reverse_singleton, List.singleton_append]

theorem takeStringFrom_flatMap {whole : Bytes} (bytes done rest : Bytes)
    (h : (bytes.flatMap escapeByte ++ quote :: rest).length ≤ whole.length) :
    ∃ h', takeStringFrom done (bytes.flatMap escapeByte ++ quote :: rest) h =
      .ok (done.reverse ++ bytes, (⟨rest, h'⟩ : Rest whole)) := by
  induction bytes generalizing done with
  | nil =>
    refine ⟨h, ?_⟩
    simp only [List.flatMap_nil, List.nil_append, List.append_nil]
    rw [takeStringFrom, if_pos rfl]
  | cons b bytes ih =>
    simp only [List.flatMap_cons, List.append_assoc] at h ⊢
    obtain ⟨within, step⟩ := takeStringFrom_escapeByte b done _ h
    obtain ⟨within, later⟩ := ih (b :: done) within
    refine ⟨within, ?_⟩
    rw [step, later, List.reverse_cons, List.append_assoc, List.singleton_append]

theorem takeString_print (s : String) (rest : Bytes) :
    ∃ h, takeString ((utf8 s).flatMap escapeByte ++ quote :: rest) = .ok (s, ⟨rest, h⟩) := by
  obtain ⟨h, taken⟩ := takeStringFrom_flatMap (utf8 s) [] rest (Nat.le_refl _)
  refine ⟨h, ?_⟩
  simp [takeString, fromStart, taken, bind, Except.bind]

theorem escape_injective {s t : String}
    (same : (utf8 s).flatMap escapeByte = (utf8 t).flatMap escapeByte) : s = t := by
  have text : ∀ s : String,
      (takeString ((utf8 s).flatMap escapeByte ++ [quote])).map (·.1) = .ok s := by
    intro s
    obtain ⟨_, taken⟩ := takeString_print s []
    rw [taken]
    rfl
  exact Except.ok.inj ((text s).symm.trans (same ▸ text t))

/-! ## Integers -/

theorem not_isDigit_of_ends {rest : Bytes} (ends : Ends rest) :
    ∀ b ∈ rest.head?, isDigit b = false := by
  intro b first
  rcases ends b first with rfl | rfl | rfl <;> rfl

theorem takeDigits_append {digits rest : Bytes} (all : ∀ d ∈ digits, isDigit d = true)
    (ends : ∀ b ∈ rest.head?, isDigit b = false) :
    ∃ h, takeDigits (digits ++ rest) = (digits, ⟨rest, h⟩) := by
  induction digits with
  | nil =>
    cases rest with
    | nil => exact ⟨_, rfl⟩
    | cons b t =>
      have stop := ends b rfl
      exact ⟨Nat.le_refl _, by simp [takeDigits, stop]⟩
  | cons d digits ih =>
    rw [List.forall_mem_cons] at all
    obtain ⟨h, taken⟩ := ih all.2
    refine ⟨Nat.le_succ_of_le h, ?_⟩
    simp only [List.cons_append, takeDigits, all.1, if_true, taken]

theorem takeWhole_decimal (n : Nat) {rest : Bytes} (ends : Ends rest) :
    ∃ h, takeWhole (decimal n ++ rest) = .ok (decimal n, ⟨rest, h⟩) := by
  have all : ∀ d ∈ decimal n, isDigit d = true := fun d => isDigit_of_mem_decimal
  have plain : ¬ ((decimal n).head? = some zero ∧ (decimal n).length ≠ 1) := by
    rintro ⟨leading, long⟩
    by_cases none : n = 0
    · exact long (none ▸ length_decimal_zero)
    · exact head?_decimal_ne_zero none leading
  cases written : decimal n with
  | nil => exact absurd written (decimal_ne_nil n)
  | cons d digits =>
    rw [written] at all plain
    rw [List.forall_mem_cons] at all
    obtain ⟨h, taken⟩ := takeDigits_append all.2 (not_isDigit_of_ends ends)
    refine ⟨Nat.lt_succ_of_le h, ?_⟩
    rw [takeWhole]
    simp only [List.cons_append, takeSomeDigits, all.1, if_true, taken, bind, Except.bind]
    rw [if_neg plain]

theorem takeFraction_of_ne {rest : Bytes} (other : dot ∉ rest.head?) :
    ∃ h, takeFraction rest = .ok (none, ⟨rest, h⟩) := by
  refine ⟨Nat.le_refl _, ?_⟩
  unfold takeFraction
  split
  · exact absurd rfl other
  · rfl

theorem dot_not_mem_of_ends {rest : Bytes} (ends : Ends rest) : dot ∉ rest.head? := by
  intro first
  rcases ends dot first with same | same | same <;> cases same

theorem takeExponent_of_ends {rest : Bytes} (ends : Ends rest) :
    ∃ h, takeExponent rest = .ok (none, ⟨rest, h⟩) := by
  refine ⟨Nat.le_refl _, ?_⟩
  cases rest with
  | nil => rfl
  | cons b t =>
    have other : ¬ (b = 0x65 ∨ b = 0x45) := by
      rcases ends b rfl with rfl | rfl | rfl <;> decide
    rw [takeExponent, if_neg other]

theorem takeUnsigned_decimal (negative : Bool) (n : Nat) {rest : Bytes} (ends : Ends rest) :
    ∃ h, takeUnsigned negative (decimal n ++ rest) =
      .ok (⟨negative, decimal n, none, none⟩, ⟨rest, h⟩) := by
  obtain ⟨h, whole⟩ := takeWhole_decimal n ends
  obtain ⟨_, fraction⟩ := takeFraction_of_ne (dot_not_mem_of_ends ends)
  obtain ⟨_, exponent⟩ := takeExponent_of_ends ends
  refine ⟨h, ?_⟩
  simp only [takeUnsigned, whole, bind, Except.bind, fraction, exponent]

theorem takeNumeral_decimal (n : Nat) (rest : Bytes) :
    takeNumeral (decimal n ++ rest) = takeUnsigned false (decimal n ++ rest) := by
  cases written : decimal n with
  | nil => exact absurd written (decimal_ne_nil n)
  | cons d digits =>
    have digit : isDigit d = true := isDigit_of_mem_decimal (written ▸ List.mem_cons_self)
    have unsigned : d ≠ minus := by
      rintro rfl
      cases digit
    rw [List.cons_append, takeNumeral]
    intro _ sign
    exact absurd (List.cons.inj sign).1 unsigned

theorem takeNumeral_printInteger (n : Int) {rest : Bytes} (ends : Ends rest) :
    ∃ h, takeNumeral (printInteger n ++ rest) =
      .ok (⟨n < 0, decimal n.natAbs, none, none⟩, ⟨rest, h⟩) := by
  by_cases negative : n < 0
  · have printed : printInteger n = minus :: decimal n.natAbs := if_pos negative
    obtain ⟨h, taken⟩ := takeUnsigned_decimal true n.natAbs ends
    rw [printed]
    refine ⟨Nat.lt_succ_of_lt h, ?_⟩
    change (takeUnsigned true (decimal n.natAbs ++ rest)).map _ = _
    simp only [taken, negative]
    rfl
  · have printed : printInteger n = decimal n.natAbs := if_neg negative
    obtain ⟨h, taken⟩ := takeUnsigned_decimal false n.natAbs ends
    rw [printed, takeNumeral_decimal]
    simp only [negative]
    exact ⟨h, taken⟩

theorem toNumber_decimal {n : Int} (exact : IsExact n) :
    Numeral.toNumber ⟨n < 0, decimal n.natAbs, none, none⟩ = .ok (.integer n exact) := by
  have value : (if decide (n < 0) = true then -(n.natAbs : Int) else n.natAbs) = n := by
    by_cases negative : n < 0
    · rw [if_pos (decide_eq_true negative)]
      omega
    · rw [if_neg (by simpa using negative)]
      omega
  simp only [Numeral.toNumber, ofDecimal_decimal, value]
  simp [exact]
  omega

theorem takeNumber_printInteger {n : Int} (exact : IsExact n) {rest : Bytes} (ends : Ends rest) :
    ∃ h, takeNumber (printInteger n ++ rest) = .ok (.integer n exact, ⟨rest, h⟩) := by
  obtain ⟨h, taken⟩ := takeNumeral_printInteger n ends
  refine ⟨h, ?_⟩
  simp only [takeNumber, taken, bind, Except.bind, toNumber_decimal exact]

end Json

end Ucan
