import Ucan.Json.Error

/-!
The parts that a JSON text is made of: space, words, strings and numbers. Each is taken from the
front of a text, and comes with what is left of it.
-/

set_option autoImplicit false

namespace Ucan.Json

open Ascii

/-- What is left of a text after some of it was read. -/
abbrev Rest (s : Bytes) := { r : Bytes // r.length < s.length }

/-- What is left of a text of which perhaps nothing was read. -/
abbrev Remainder (s : Bytes) := { r : Bytes // r.length ≤ s.length }

theorem Rest.le {s : Bytes} (r : Rest s) : r.1.length ≤ s.length := Nat.le_of_lt r.2

theorem Rest.lt_of {whole s : Bytes} (r : Rest s) (h : s.length ≤ whole.length) :
    r.1.length < whole.length := Nat.lt_of_lt_of_le r.2 h

theorem Rest.le_of {whole s : Bytes} (r : Rest s) (h : s.length ≤ whole.length) :
    r.1.length ≤ whole.length := Nat.le_of_lt (r.lt_of h)

theorem Rest.lt_of_lt {whole s : Bytes} (r : Rest s) (h : s.length < whole.length) :
    r.1.length < whole.length := Nat.lt_trans r.2 h

theorem Rest.le_of_lt {whole s : Bytes} (r : Rest s) (h : s.length < whole.length) :
    r.1.length ≤ whole.length := Nat.le_of_lt (r.lt_of_lt h)

def Remainder.all (s : Bytes) : Remainder s := ⟨s, Nat.le_refl _⟩

/-- Goes through a text from its start, with what is left never longer than all of it. -/
def fromStart {β : Type} (s : Bytes) (loop : (t : Bytes) → t.length ≤ s.length → β) : β :=
  loop s (Nat.le_refl _)

def Rest.toRemainder {s : Bytes} (r : Rest s) : Remainder s := ⟨r.1, Nat.le_of_lt r.2⟩

/-- What is left of the rest is left of the whole. -/
def Rest.trans {s : Bytes} (r : Rest s) (t : Rest r.1) : Rest s := ⟨t.1, Nat.lt_trans t.2 r.2⟩

def Rest.after {s : Bytes} (r : Rest s) (t : Remainder r.1) : Rest s :=
  ⟨t.1, Nat.lt_of_le_of_lt t.2 r.2⟩

/-- What is left after reading again from the byte that comes before the rest. -/
def Rest.afterFirst {s : Bytes} {b : UInt8} (t : Rest s) (r : Rest (b :: t.1)) : Rest s :=
  ⟨r.1, Nat.lt_of_le_of_lt (Nat.le_of_lt_succ r.2) t.2⟩

def isSpace (b : UInt8) : Bool :=
  b == space || b == tab || b == newline || b == carriageReturn

/-- The first byte that is not space, and what follows it. -/
def first? : (s : Bytes) → Option (UInt8 × Rest s)
  | [] => none
  | b :: t =>
    if isSpace b then (first? t).map fun (c, r) => (c, ⟨r.1, Nat.lt_succ_of_lt r.2⟩)
    else some (b, ⟨t, Nat.lt_succ_self _⟩)

def takeWord : (word s : Bytes) → Except Error (Remainder s)
  | [], s => .ok ⟨s, Nat.le_refl _⟩
  | _ :: _, [] => .error .endInValue
  | c :: word, b :: s =>
    if b = c then (takeWord word s).map fun r => ⟨r.1, Nat.le_succ_of_le r.2⟩
    else .error .expectedWord

/-! ## Strings -/

/-- The UTF-16 unit that four hexadecimal digits write. -/
def takeUnit (s : Bytes) : Except Error (Nat × Rest s) :=
  match s with
  | a :: b :: c :: d :: rest =>
    match hexValue? a, hexValue? b, hexValue? c, hexValue? d with
    | some a, some b, some c, some d =>
      .ok (((a * 16 + b) * 16 + c) * 16 + d, ⟨rest, by simp only [List.length_cons]; omega⟩)
    | _, _, _, _ => .error .invalidEscape
  | _ => .error .endInString

def isLeadingUnit (n : Nat) : Bool := 0xD800 ≤ n && n ≤ 0xDBFF

def isTrailingUnit (n : Nat) : Bool := 0xDC00 ≤ n && n ≤ 0xDFFF

def utf8Char (n : Nat) : Bytes := String.utf8EncodeChar (Char.ofNat n)

/-- The character written by the UTF-16 units after an escape; a leading surrogate needs the
escape of a trailing one after it. -/
def takeUnicode (s : Bytes) : Except Error (Bytes × Rest s) := do
  let (n, r) ← takeUnit s
  if isTrailingUnit n then .error .loneSurrogate
  else if isLeadingUnit n then
    match h : r.1 with
    | [] => .error .endInString
    | [b] => .error (if b = backslash then .endInString else .unfinishedSurrogatePair)
    | b :: c :: u =>
      if b = backslash ∧ c = 0x75 then do
        let (m, v) ← takeUnit u
        if isTrailingUnit m then
          .ok (utf8Char (0x10000 + (n - 0xD800) * 0x400 + (m - 0xDC00)), ⟨v.1, by
            have := r.2; have := v.2; simp only [h, List.length_cons] at *; omega⟩)
        else .error .loneSurrogate
      else .error .unfinishedSurrogatePair
  else .ok (utf8Char n, r)

/-- The bytes that stand for themselves when a backslash comes before, or for a control character. -/
def simpleEscape? (b : UInt8) : Option UInt8 :=
  if b = quote || b = backslash || b = slash then some b
  else if b = 0x62 then some 0x08
  else if b = 0x66 then some 0x0C
  else if b = 0x6E then some newline
  else if b = 0x72 then some carriageReturn
  else if b = 0x74 then some tab
  else none

def takeEscape (s : Bytes) : Except Error (Bytes × Rest s) :=
  match s with
  | [] => .error .endInString
  | b :: t =>
    match simpleEscape? b with
    | some c => .ok ([c], ⟨t, Nat.lt_succ_self _⟩)
    | none =>
      if b = 0x75 then (takeUnicode t).map fun (c, r) => (c, ⟨r.1, Nat.lt_succ_of_lt r.2⟩)
      else .error .invalidEscape

/-- The bytes up to the closing quote with their escapes resolved, after `done` in reverse. -/
def takeStringFrom {whole : Bytes} (done s : Bytes) (h : s.length ≤ whole.length) :
    Except Error (Bytes × Rest whole) :=
  match s with
  | [] => .error .endInString
  | b :: t =>
    if b = quote then .ok (done.reverse, ⟨t, h⟩)
    else if b = backslash then
      match takeEscape t with
      | .error e => .error e
      | .ok (c, r) =>
        takeStringFrom (c.reverse ++ done) r.1 (by have := r.2; simp only [List.length_cons] at h; omega)
    else if b < 0x20 then .error .controlCharacter
    else takeStringFrom (b :: done) t (Nat.le_of_lt h)
termination_by s.length
decreasing_by
  · have := r.2; simp only [List.length_cons]; omega
  · exact Nat.lt_succ_self _

def takeString (s : Bytes) : Except Error (String × Rest s) := do
  let (bytes, r) ← fromStart s (takeStringFrom [])
  match ofUtf8? bytes with
  | some text => .ok (text, r)
  | none => .error .invalidUnicode

/-- Passes over a string whose opening quote was just read, whatever its bytes stand for. -/
def skipStringFrom {whole : Bytes} (s : Bytes) (h : s.length ≤ whole.length) :
    Except Error (Rest whole) :=
  match s with
  | [] => .error .endInString
  | b :: t =>
    if b = quote then .ok ⟨t, h⟩
    else if b = backslash then
      match t with
      | [] => .error .endInString
      | c :: u =>
        if (simpleEscape? c).isSome then
          skipStringFrom u (by simp only [List.length_cons] at h; omega)
        else if c = 0x75 then
          match takeUnit u with
          | .error e => .error e
          | .ok (_, r) =>
            skipStringFrom r.1 (by have := r.2; simp only [List.length_cons] at h; omega)
        else .error .invalidEscape
    else if b < 0x20 then .error .controlCharacter
    else skipStringFrom t (Nat.le_of_lt h)
termination_by s.length
decreasing_by
  · simp only [List.length_cons]; omega
  · have := r.2; simp only [List.length_cons]; omega
  · exact Nat.lt_succ_self _

def skipString (s : Bytes) : Except Error (Rest s) := fromStart s skipStringFrom

/-! ## Numbers -/

/-- A number as it is written, by the digits of its parts. -/
structure Numeral where
  negative : Bool
  whole : Bytes
  fraction : Option Bytes
  -- The sign, true for a negative one, and the digits.
  exponent : Option (Bool × Bytes)
  deriving DecidableEq

def takeDigits : (s : Bytes) → Bytes × Remainder s
  | [] => ([], ⟨[], Nat.le_refl _⟩)
  | b :: t =>
    if isDigit b then
      let (digits, r) := takeDigits t
      (b :: digits, ⟨r.1, Nat.le_succ_of_le r.2⟩)
    else ([], ⟨b :: t, Nat.le_refl _⟩)

def takeSomeDigits (s : Bytes) : Except Error (Bytes × Rest s) :=
  match s with
  | [] => .error .endInValue
  | b :: t =>
    if isDigit b then
      let (digits, r) := takeDigits t
      .ok (b :: digits, ⟨r.1, Nat.lt_succ_of_le r.2⟩)
    else .error .invalidNumber

/-- The digits before the point: no zero comes before another digit. -/
def takeWhole (s : Bytes) : Except Error (Bytes × Rest s) := do
  let (digits, r) ← takeSomeDigits s
  if digits.head? = some zero ∧ digits.length ≠ 1 then .error .invalidNumber
  else .ok (digits, r)

def takeFraction (s : Bytes) : Except Error (Option Bytes × Remainder s) :=
  match s with
  | dot :: t => do
    let (digits, r) ← takeSomeDigits t
    .ok (some digits, ⟨r.1, Nat.le_succ_of_le (Nat.le_of_lt r.2)⟩)
  | s => .ok (none, ⟨s, Nat.le_refl _⟩)

def takeSign (s : Bytes) : Bool × Remainder s :=
  match s with
  | plus :: t => (false, ⟨t, Nat.le_succ _⟩)
  | minus :: t => (true, ⟨t, Nat.le_succ _⟩)
  | s => (false, ⟨s, Nat.le_refl _⟩)

def takeExponent (s : Bytes) : Except Error (Option (Bool × Bytes) × Remainder s) :=
  match s with
  | [] => .ok (none, ⟨[], Nat.le_refl _⟩)
  | b :: t =>
    if b = 0x65 ∨ b = 0x45 then do
      let (sign, r) := takeSign t
      let (digits, u) ← takeSomeDigits r.1
      .ok (some (sign, digits), ⟨u.1, by
        have := r.2; have := u.2; simp only [List.length_cons]; omega⟩)
    else .ok (none, ⟨b :: t, Nat.le_refl _⟩)

def takeUnsigned (negative : Bool) (s : Bytes) : Except Error (Numeral × Rest s) := do
  let (whole, r) ← takeWhole s
  let (fraction, t) ← takeFraction r.1
  let (exponent, u) ← takeExponent t.1
  .ok (⟨negative, whole, fraction, exponent⟩, ⟨u.1, by
    have := r.2; have := t.2; have := u.2; omega⟩)

def takeNumeral (s : Bytes) : Except Error (Numeral × Rest s) :=
  match s with
  | minus :: t => (takeUnsigned true t).map fun (n, r) => (n, ⟨r.1, Nat.lt_succ_of_lt r.2⟩)
  | s => takeUnsigned false s

/-- Takes up digits as long as the number they write fits in 64 bits; the others are left. -/
def absorb (n : Nat) : Bytes → Nat × Bytes
  | [] => (n, [])
  | d :: ds =>
    let m := 10 * n + digitValue d
    if m < UInt64.size then absorb m ds else (n, d :: ds)

/-- The signed zero that a number too small for a double is read as. -/
def Number.zero (negative : Bool) : Number := .double (if negative then 0x8000000000000000 else 0)

/-- The number of a numeral with a point or an exponent, or too long for an exact integer. Digits
that do not fit in 64 bits count as zeros before the point and are dropped after it. -/
def Numeral.toDouble (n : Numeral) : Except Error Number :=
  let (significand, uncounted) := absorb 0 n.whole
  let fraction := n.fraction.getD []
  let (significand, dropped) := absorb significand fraction
  let places : Int := uncounted.length - (fraction.length - dropped.length)
  let scaled (exponent : Int) : Except Error Number :=
    match Binary64.ofDecimal? n.negative significand.toUInt64 exponent with
    | some bits => .ok (.double bits)
    | none => .error .numberOutOfRange
  match n.exponent with
  | none => scaled places
  | some (down, digits) =>
    let exponent := ofDecimal digits
    if exponent < 0x80000000 then
      scaled (if down then places - exponent else places + exponent)
    else if significand ≠ 0 ∧ !down then .error .numberOutOfRange
    else .ok (.zero n.negative)

/-- An integer that fits is exact, but for the negative zero; any other number is a double. -/
def Numeral.toNumber (n : Numeral) : Except Error Number :=
  let magnitude := ofDecimal n.whole
  let value : Int := if n.negative then -magnitude else magnitude
  if h : IsExact value then
    if n.fraction = none ∧ n.exponent = none ∧ !(n.negative ∧ magnitude = 0) then
      .ok (.integer value h)
    else n.toDouble
  else n.toDouble

def takeNumber (s : Bytes) : Except Error (Number × Rest s) := do
  let (numeral, r) ← takeNumeral s
  let number ← numeral.toNumber
  .ok (number, r)

end Ucan.Json
