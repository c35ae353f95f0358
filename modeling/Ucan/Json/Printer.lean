import Ucan.Ascii
import Ucan.Binary64
import Ucan.Json.Basic

/-!
JSON values as text: compact, members in the order they are held in. `Json.canonical` puts them in
the order of their names first, so that it depends on nothing but the value.
-/

set_option autoImplicit false

namespace Ucan.Json

open Ascii

/-- Only the quote, the backslash and the control characters are escaped. -/
def escapeByte (b : UInt8) : Bytes :=
  if b = quote then [backslash, quote]
  else if b = backslash then [backslash, backslash]
  else if b = 0x08 then [backslash, 0x62]
  else if b = tab then [backslash, 0x74]
  else if b = newline then [backslash, 0x6E]
  else if b = 0x0C then [backslash, 0x66]
  else if b = carriageReturn then [backslash, 0x72]
  else if b < 0x20 then
    [backslash, 0x75, zero, zero, hexDigit (b.toNat / 16), hexDigit (b.toNat % 16)]
  else [b]

def printString (s : String) : Bytes := quote :: (utf8 s).flatMap escapeByte ++ [quote]

def printInteger (n : Int) : Bytes :=
  if n < 0 then minus :: decimal n.natAbs else decimal n.natAbs

/-- Digits with their decimal point: in place when the first digit stands between the fifth place
after the point and the sixteenth before it, and as an exponent of ten otherwise. -/
def printPlaced (digits : Bytes) (leading : Int) : Bytes :=
  if 0 ≤ leading ∧ leading ≤ 15 then
    let whole := leading.toNat + 1
    digits.take whole ++ List.replicate (whole - digits.length) zero ++ [dot] ++
      (if digits.length ≤ whole then [zero] else digits.drop whole)
  else if -5 ≤ leading ∧ leading < 0 then
    [zero, dot] ++ List.replicate (-leading - 1).toNat zero ++ digits
  else
    digits.take 1 ++ (if digits.length ≤ 1 then [] else dot :: digits.drop 1) ++ [0x65] ++
      (if 0 ≤ leading then plus else minus) :: decimal leading.natAbs

/-- The shortest decimal that reads back as the double, always with a point or an exponent. -/
def printDouble (bits : UInt64) : Bytes :=
  let x := Binary64.magnitude bits
  let text :=
    if x.significand = 0 then [zero, dot, zero]
    else
      let d := x.shortest
      let written := decimal d.digits
      let digits := (written.reverse.dropWhile (· == zero)).reverse
      printPlaced digits (d.exponent + written.length - 1)
  if Binary64.isNegative bits then minus :: text else text

def printNumber : Number → Bytes
  | .integer n _ => printInteger n
  | .double bits => printDouble bits

mutual

def print : Json → Bytes
  | .null => utf8 "null"
  | .bool true => utf8 "true"
  | .bool false => utf8 "false"
  | .number n => printNumber n
  | .string s => printString s
  | .array elements => openBracket :: printElements elements ++ [closeBracket]
  | .object members => openBrace :: printMembers members ++ [closeBrace]

def printElements : List Json → Bytes
  | [] => []
  | [a] => print a
  | a :: as => print a ++ comma :: printElements as

def printMembers : List (String × Json) → Bytes
  | [] => []
  | [(name, a)] => printString name ++ colon :: print a
  | (name, a) :: as => printString name ++ colon :: print a ++ comma :: printMembers as

end

/-- The one text of a value that does not depend on the order of members. -/
def canonical (j : Json) : Bytes := print j.sort

end Ucan.Json
