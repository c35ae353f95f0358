import Ucan.Ascii

/-!
The URL safe base64 of RFC 4648, without padding. Each byte string has one written form: decoding
refuses padding, other lengths, and last symbols with bits to spare.
-/

set_option autoImplicit false

namespace Ucan.Base64Url

open Ascii

inductive Error where
  | invalidSymbol (symbol : UInt8) (offset : Nat)
  | invalidLastSymbol (symbol : UInt8) (offset : Nat)
  | invalidLength (length : Nat)
  | invalidPadding
  deriving DecidableEq

def Error.message : Error → String
  | invalidSymbol symbol offset =>
    "Invalid symbol " ++ toString symbol ++ ", offset " ++ toString offset ++ "."
  | invalidLastSymbol symbol offset =>
    "Invalid last symbol " ++ toString symbol ++ ", offset " ++ toString offset ++ "."
  | invalidLength length => "Invalid input length: " ++ toString length
  | invalidPadding => "Invalid padding"

def symbol (v : UInt8) : UInt8 :=
  if v < 26 then 0x41 + v
  else if v < 52 then 0x61 + (v - 26)
  else if v < 62 then 0x30 + (v - 52)
  else if v = 62 then minus
  else 0x5F

def value? (b : UInt8) : Option UInt8 :=
  if 0x41 ≤ b ∧ b ≤ 0x5A then some (b - 0x41)
  else if 0x61 ≤ b ∧ b ≤ 0x7A then some (b - 0x61 + 26)
  else if isDigit b then some (b - 0x30 + 52)
  else if b = minus then some 62
  else if b = 0x5F then some 63
  else none

set_option maxRecDepth 4000 in
theorem value?_symbol {v : UInt8} (h : v < 64) : value? (symbol v) = some v := by
  have : ∀ n < 64, value? (symbol (UInt8.ofNat n)) = some (UInt8.ofNat n) := by decide
  simpa using this v.toNat (UInt8.lt_iff_toNat_lt.mp h)

set_option maxRecDepth 4000 in
theorem symbol_of_value? {b v : UInt8} (h : value? b = some v) : symbol v = b ∧ v < 64 := by
  have : ∀ n < 256, ∀ v, value? (UInt8.ofNat n) = some v →
      symbol v = UInt8.ofNat n ∧ v < 64 := by decide
  simpa using this b.toNat b.toNat_lt v (by simpa using h)

/-- Six bits at a time from the front, the last group filled up with zeros. -/
def encode : Bytes → Bytes
  | a :: b :: c :: rest =>
    symbol (a >>> 2) :: symbol ((a &&& 0x03) <<< 4 ||| b >>> 4) ::
      symbol ((b &&& 0x0F) <<< 2 ||| c >>> 6) :: symbol (c &&& 0x3F) :: encode rest
  | [a, b] =>
    [symbol (a >>> 2), symbol ((a &&& 0x03) <<< 4 ||| b >>> 4), symbol ((b &&& 0x0F) <<< 2)]
  | [a] => [symbol (a >>> 2), symbol ((a &&& 0x03) <<< 4)]
  | [] => []

def firstByte (v w : UInt8) : UInt8 := v <<< 2 ||| w >>> 4

def secondByte (w x : UInt8) : UInt8 := w <<< 4 ||| x >>> 2

def thirdByte (x y : UInt8) : UInt8 := x <<< 6 ||| y

def valueAt (b : UInt8) (offset : Nat) : Except Error UInt8 :=
  match value? b with
  | some v => .ok v
  | none => .error (.invalidSymbol b offset)

/-- The values of the symbols of the last group, and whether padding follows them. Padding at one
of the first two places, or before a symbol, counts as an invalid symbol. -/
def lastValues (start index : Nat) (padding : Option Nat) :
    Bytes → Except Error (List UInt8 × Bool)
  | [] => .ok ([], padding.isSome)
  | b :: rest =>
    if b = equals then
      if index < 2 then .error (.invalidSymbol b (start + index))
      else lastValues start (index + 1) (padding <|> some index) rest
    else match padding with
      | some first => .error (.invalidSymbol equals (start + first))
      | none => do
        let v ← valueAt b (start + index)
        let (vs, padded) ← lastValues start (index + 1) none rest
        .ok (v :: vs, padded)

/-- The last group, of at most four symbols. -/
def decodeLast (start : Nat) (s : Bytes) : Except Error Bytes := do
  if s.isEmpty then .ok []
  else
    let (values, padded) ← lastValues start 0 none s
    if values.length < 2 then .error (.invalidLength (start + values.length))
    else if padded then .error .invalidPadding
    else match values with
      | [v, w] =>
        if w &&& 0x0F = 0 then .ok [firstByte v w]
        else .error (.invalidLastSymbol (symbol w) (start + 1))
      | [v, w, x] =>
        if x &&& 0x03 = 0 then .ok [firstByte v w, secondByte w x]
        else .error (.invalidLastSymbol (symbol x) (start + 2))
      | v :: w :: x :: y :: _ => .ok [firstByte v w, secondByte w x, thirdByte x y]
      | _ => .error (.invalidLength start)

/-- Groups of four symbols, of which the last is allowed to be shorter. -/
def decodeFrom (start : Nat) : Bytes → Except Error Bytes
  | a :: b :: c :: d :: e :: rest => do
    let v ← valueAt a start
    let w ← valueAt b (start + 1)
    let x ← valueAt c (start + 2)
    let y ← valueAt d (start + 3)
    let more ← decodeFrom (start + 4) (e :: rest)
    .ok (firstByte v w :: secondByte w x :: thirdByte x y :: more)
  | s => decodeLast start s

/-- A foreign last byte that makes the length one too long is reported before all else. -/
def decode (s : Bytes) : Except Error Bytes :=
  match s.getLast? with
  | some last =>
    if s.length % 4 = 1 ∧ last ≠ equals ∧ value? last = none then
      .error (.invalidSymbol last (s.length - 1))
    else decodeFrom 0 s
  | none => .ok []

end Ucan.Base64Url
