import Ucan.Bytes

/-!
The ASCII bytes that the formats of this library are written with, and numbers as decimal digits.
-/

set_option autoImplicit false

namespace Ucan.Ascii

@[match_pattern] abbrev tab : UInt8 := 0x09
@[match_pattern] abbrev newline : UInt8 := 0x0A
@[match_pattern] abbrev carriageReturn : UInt8 := 0x0D
@[match_pattern] abbrev space : UInt8 := 0x20
@[match_pattern] abbrev quote : UInt8 := 0x22
@[match_pattern] abbrev plus : UInt8 := 0x2B
@[match_pattern] abbrev comma : UInt8 := 0x2C
@[match_pattern] abbrev minus : UInt8 := 0x2D
@[match_pattern] abbrev dot : UInt8 := 0x2E
@[match_pattern] abbrev slash : UInt8 := 0x2F
@[match_pattern] abbrev zero : UInt8 := 0x30
@[match_pattern] abbrev colon : UInt8 := 0x3A
@[match_pattern] abbrev equals : UInt8 := 0x3D
@[match_pattern] abbrev openBracket : UInt8 := 0x5B
@[match_pattern] abbrev backslash : UInt8 := 0x5C
@[match_pattern] abbrev closeBracket : UInt8 := 0x5D
@[match_pattern] abbrev openBrace : UInt8 := 0x7B
@[match_pattern] abbrev closeBrace : UInt8 := 0x7D

def isDigit (b : UInt8) : Bool := 0x30 ≤ b && b ≤ 0x39

def digitValue (b : UInt8) : Nat := (b - 0x30).toNat

def digit (n : Nat) : UInt8 := 0x30 + UInt8.ofNat (n % 10)

/-- The decimal digits of a number, without leading zeros. -/
def decimal (n : Nat) : Bytes :=
  if n < 10 then [digit n] else decimal (n / 10) ++ [digit n]

def ofDecimal (ds : Bytes) : Nat := ds.foldl (fun n d => 10 * n + digitValue d) 0

theorem digitValue_digit (n : Nat) : digitValue (digit n) = n % 10 := by
  have h : ∀ m < 10, digitValue (0x30 + UInt8.ofNat m) = m := by decide
  exact h _ (Nat.mod_lt _ (by decide))

theorem isDigit_digit (n : Nat) : isDigit (digit n) = true := by
  have h : ∀ m < 10, isDigit (0x30 + UInt8.ofNat m) = true := by decide
  exact h _ (Nat.mod_lt _ (by decide))

theorem ofDecimal_decimal (n : Nat) : ofDecimal (decimal n) = n := by
  induction n using decimal.induct with
  | case1 n h => rw [decimal, if_pos h]; simp [ofDecimal, digitValue_digit]; omega
  | case2 n h ih =>
    rw [decimal, if_neg h]
    simp only [ofDecimal, List.foldl_append, List.foldl_cons, List.foldl_nil] at ih ⊢
    rw [ih, digitValue_digit]
    omega

theorem isDigit_of_mem_decimal {n : Nat} {d : UInt8} (h : d ∈ decimal n) : isDigit d = true := by
  induction n using decimal.induct with
  | case1 n hn =>
    rw [decimal, if_pos hn] at h
    rw [List.mem_singleton.mp h]
    exact isDigit_digit n
  | case2 n hn ih =>
    rw [decimal, if_neg hn] at h
    rcases List.mem_append.mp h with h | h
    · exact ih h
    · rw [List.mem_singleton.mp h]
      exact isDigit_digit n

/-- The value of a hexadecimal digit in either case. -/
def hexValue? (b : UInt8) : Option Nat :=
  if isDigit b then some (digitValue b)
  else if 0x61 ≤ b && b ≤ 0x66 then some ((b - 0x61).toNat + 10)
  else if 0x41 ≤ b && b ≤ 0x46 then some ((b - 0x41).toNat + 10)
  else none

def hexDigit (n : Nat) : UInt8 :=
  if n < 10 then 0x30 + UInt8.ofNat n else 0x57 + UInt8.ofNat n

theorem hexValue?_hexDigit {n : Nat} (h : n < 16) : hexValue? (hexDigit n) = some n := by
  revert n; decide

end Ucan.Ascii
