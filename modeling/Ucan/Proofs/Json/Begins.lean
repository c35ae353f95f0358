import Ucan.Json.Reader
import Ucan.Proofs.Json.Lexical

/-!
How the text of a value begins, whatever comes after it, and the form of numbers.
-/

set_option autoImplicit false

namespace Ucan.Json

open Ascii

/-! ## Numbers -/

def Digits (s : Bytes) : Prop := ∀ d ∈ s, isDigit d = true

def IsFraction (s : Bytes) : Prop := s = [] ∨ ∃ digits, Digits digits ∧ s = dot :: digits

def IsExponent (s : Bytes) : Prop :=
  s = [] ∨ ∃ sign digits, (sign = plus ∨ sign = minus) ∧ Digits digits ∧ s = 0x65 :: sign :: digits

/-- A number without its sign. Any digits may be missing, as long as something is there. -/
inductive Unsigned : Bytes → Prop where
  | intro {whole fraction exponent : Bytes} (digits : Digits whole) (placed : IsFraction fraction)
      (scaled : IsExponent exponent) (present : whole ++ fraction ++ exponent ≠ []) :
      Unsigned (whole ++ fraction ++ exponent)

theorem digits_decimal (n : Nat) : Digits (decimal n) := fun _ => isDigit_of_mem_decimal

theorem digits_zeros (n : Nat) : Digits (List.replicate n zero) := by
  intro d member
  rw [List.eq_of_mem_replicate member]
  rfl

variable {digits s t : Bytes}

theorem Digits.append (first : Digits s) (second : Digits t) : Digits (s ++ t) :=
  fun d member => (List.mem_append.mp member).elim (first d) (second d)

theorem Digits.sublist (digits : Digits t) (part : s.Sublist t) : Digits s :=
  fun d member => digits d (part.subset member)

theorem isFraction_dot (all : Digits digits) : IsFraction (dot :: digits) := .inr ⟨digits, all, rfl⟩

theorem unsigned_point (whole : Digits s) (fraction : Digits t) : Unsigned (s ++ dot :: t) := by
  have number := Unsigned.intro whole (isFraction_dot fraction) (.inl rfl) (by simp)
  rwa [List.append_nil] at number

theorem unsigned_decimal (n : Nat) : Unsigned (decimal n) := by
  have number := Unsigned.intro (digits_decimal n) (.inl rfl) (.inl rfl)
    (by simpa using decimal_ne_nil n)
  rwa [List.append_nil, List.append_nil] at number

theorem unsigned_placed (all : Digits digits) (leading : Int) :
    Unsigned (printPlaced digits leading) := by
  have first (n : Nat) := all.sublist (List.take_sublist n digits)
  have last (n : Nat) := all.sublist (List.drop_sublist n digits)
  unfold printPlaced
  -- The point is after the first digits, before all of them, or there is an exponent.
  split
  · simp only [List.append_assoc, List.singleton_append]
    rw [← List.append_assoc]
    apply unsigned_point ((first _).append (digits_zeros _))
    split
    · exact digits_zeros 1
    · exact last _
  split
  · exact unsigned_point (digits_zeros 1) ((digits_zeros _).append all)
  · rw [List.append_assoc, List.singleton_append]
    apply Unsigned.intro (first 1)
    · split
      · exact .inl rfl
      · exact isFraction_dot (last 1)
    · refine .inr ⟨_, _, ?_, digits_decimal _, rfl⟩
      split
      · exact .inl rfl
      · exact .inr rfl
    · simp

/-- A number is written as its magnitude, perhaps with a sign before it. -/
def Signed (s : Bytes) : Prop := Unsigned s ∨ ∃ magnitude, Unsigned magnitude ∧ s = minus :: magnitude

theorem signed_of_sign (negative : Prop) [Decidable negative] (number : Unsigned s) :
    Signed (if negative then minus :: s else s) := by
  split
  · exact .inr ⟨s, number, rfl⟩
  · exact .inl number

theorem signed_double (bits : UInt64) : Signed (printDouble bits) := by
  apply signed_of_sign
  split
  · exact unsigned_point (digits_zeros 1) (digits_zeros 1)
  · apply unsigned_placed
    intro d member
    have inside := (List.dropWhile_sublist (· == zero)).subset (List.mem_reverse.mp member)
    exact digits_decimal _ d (List.mem_reverse.mp inside)

theorem signed_number (n : Number) : Signed (printNumber n) := by
  cases n with
  | integer n => exact signed_of_sign _ (unsigned_decimal _)
  | double bits => exact signed_double bits

/-- How the magnitude of a number may begin. -/
def startsMagnitude (b : UInt8) : Bool := isDigit b || b == dot || b == 0x65

theorem Unsigned.exists_cons (number : Unsigned s) :
    ∃ b t, s = b :: t ∧ startsMagnitude b = true := by
  obtain @⟨whole, fraction, exponent, digits, placed, scaled, present⟩ := number
  cases whole with
  | cons d more =>
    have digit := digits d List.mem_cons_self
    exact ⟨d, _, rfl, by simp [startsMagnitude, digit]⟩
  | nil =>
    rcases placed with rfl | ⟨_, -, rfl⟩
    · rcases scaled with rfl | ⟨_, _, -, -, rfl⟩
      · exact absurd rfl present
      · exact ⟨_, _, rfl, rfl⟩
    · exact ⟨_, _, rfl, rfl⟩

/-! ## Values -/

inductive Begins : Json → UInt8 → Prop where
  | null : Begins null 0x6E
  | yes : Begins (bool true) 0x74
  | no : Begins (bool false) 0x66
  | negative (n : Number) : Begins (number n) minus
  | magnitude (n : Number) {b : UInt8} (start : startsMagnitude b = true) : Begins (number n) b
  | string (s : String) : Begins (string s) quote
  | array (elements : List Json) : Begins (array elements) openBracket
  | object (members : List (String × Json)) : Begins (object members) openBrace

theorem exists_begins (j : Json) : ∃ b t, j.print = b :: t ∧ j.Begins b := by
  cases j with
  | null => exact ⟨_, _, rfl, .null⟩
  | bool value =>
    cases value with
    | true => exact ⟨_, _, rfl, .yes⟩
    | false => exact ⟨_, _, rfl, .no⟩
  | number n =>
    rcases signed_number n with number | ⟨magnitude, -, same⟩
    · obtain ⟨b, t, same, start⟩ := number.exists_cons
      exact ⟨b, t, same, .magnitude n start⟩
    · exact ⟨minus, magnitude, same, .negative n⟩
  | string s => exact ⟨quote, _, rfl, .string s⟩
  | array elements => exact ⟨openBracket, _, rfl, .array elements⟩
  | object members => exact ⟨openBrace, _, rfl, .object members⟩

variable {j : Json} {b : UInt8}

theorem Begins.not_isSpace (begins : j.Begins b) : isSpace b = false := by
  cases begins with
  | magnitude n start =>
    have other : ∀ c, startsMagnitude c = false → b ≠ c := by
      rintro c no rfl
      cases start.symm.trans no
    simp [isSpace, other space rfl, other tab rfl, other newline rfl, other carriageReturn rfl]
  | _ => rfl

theorem Begins.ne_closeBracket (begins : j.Begins b) : b ≠ closeBracket := by
  rintro rfl
  cases begins with
  | magnitude n start => cases start

theorem begins_first? {rest : Bytes} {t : Rest s} (text : s = j.print ++ rest) (first : first? s = some (b, t)) :
    j.Begins b ∧ b :: t.1 = j.print ++ rest := by
  obtain ⟨c, u, printed, begins⟩ := exists_begins j
  rw [printed] at text ⊢
  subst text
  cases (first?_cons begins.not_isSpace (u ++ rest)).symm.trans first
  exact ⟨begins, rfl⟩

theorem Begins.eq_null (begins : j.Begins 0x6E) : j = .null := by
  cases begins with
  | magnitude n start => cases start
  | null => rfl

theorem Begins.eq_true (begins : j.Begins 0x74) : j = .bool true := by
  cases begins with
  | magnitude n start => cases start
  | yes => rfl

theorem Begins.eq_false (begins : j.Begins 0x66) : j = .bool false := by
  cases begins with
  | magnitude n start => cases start
  | no => rfl

theorem Begins.eq_number (begins : j.Begins b) (start : Reader.isNumberStart b = true) :
    ∃ n, j = .number n := by
  cases begins with
  | negative n | magnitude n => exact ⟨n, rfl⟩
  | _ => cases start

theorem Begins.eq_string (begins : j.Begins quote) : ∃ s, j = .string s := by
  cases begins with
  | magnitude n start => cases start
  | string s => exact ⟨s, rfl⟩

theorem Begins.eq_array (begins : j.Begins openBracket) : ∃ elements, j = .array elements := by
  cases begins with
  | magnitude n start => cases start
  | array elements => exact ⟨elements, rfl⟩

theorem Begins.eq_object (begins : j.Begins openBrace) : ∃ members, j = .object members := by
  cases begins with
  | magnitude n start => cases start
  | object members => exact ⟨members, rfl⟩

end Ucan.Json
