import Ucan.Bytes

/-!
Doubles by their bits: the binary fraction they stand for, the shortest decimal that reads back as
them, and the double that a decimal is read as.
-/

set_option autoImplicit false

namespace Ucan.Binary64

def isNegative (bits : UInt64) : Bool := bits >>> 63 == 1

/-- The magnitude of a finite double is `significand * 2 ^ exponent`. -/
structure Magnitude where
  significand : Nat
  exponent : Int
  deriving DecidableEq

/-- The first bit of a significand, which is not written. -/
def hiddenBit : Nat := 0x10000000000000

def magnitude (bits : UInt64) : Magnitude :=
  let biased := ((bits >>> 52) &&& 0x7FF).toNat
  let fraction := (bits &&& 0xFFFFFFFFFFFFF).toNat
  if biased = 0 then ⟨fraction, -1074⟩ else ⟨fraction + hiddenBit, biased - 1075⟩

/-- `digits * 10 ^ exponent`. -/
structure Decimal where
  digits : Nat
  exponent : Int
  deriving DecidableEq

namespace Magnitude

/-- The distance to the next double below is half of that above at the start of a binade. -/
def startsBinade (x : Magnitude) : Bool :=
  x.significand == hiddenBit && x.exponent != -1074

/-- `(n, d)` with `n / d` the ratio of a quarter of the last binary place to `10 ^ place`. -/
def quarterOver (x : Magnitude) (place : Int) : Nat × Nat :=
  let q := x.exponent - 2
  (Nat.pow 10 (-place).toNat <<< q.toNat, Nat.pow 10 place.toNat <<< (-q).toNat)

/-- `digits * 10 ^ place` is nearer to this double than to any other, or as near as to another and
this one is even. -/
def readsBack (x : Magnitude) (place : Int) (digits : Nat) : Bool :=
  let (n, d) := x.quarterOver place
  let low := (4 * x.significand - if x.startsBinade then 1 else 2) * n
  let high := (4 * x.significand + 2) * n
  if x.significand % 2 = 0 then low ≤ digits * d && digits * d ≤ high
  else low < digits * d && digits * d < high

/-- Of the two multiples of `10 ^ place` around the value, the nearer one that reads back; when both
do and are as near, the even one. -/
def onGrid? (x : Magnitude) (place : Int) : Option Nat :=
  let (n, d) := x.quarterOver place
  let value := 4 * x.significand * n
  let below := value / d
  let rest := 2 * (value % d)
  let upward := d < rest || (d == rest && below % 2 == 1)
  match x.readsBack place below, x.readsBack place (below + 1) with
  | true, true => some (if upward then below + 1 else below)
  | true, false => some below
  | false, true => some (below + 1)
  | false, false => none

/-- The least `k` from `start` on with value less than `10 ^ (k + 1)`, if `steps` are enough. -/
def leadingPlaceFrom (x : Magnitude) : (steps : Nat) → (start : Int) → Int
  | 0, k => k
  | steps + 1, k =>
    let (n, d) := x.quarterOver (k + 1)
    if 4 * x.significand * n < d then k else x.leadingPlaceFrom steps (k + 1)

/-- The place of the first decimal digit of a value that is not zero. -/
def leadingPlace (x : Magnitude) : Int :=
  let binary : Int := x.significand.log2 + x.exponent
  x.leadingPlaceFrom 4 ((binary * 30103) / 100000 - 1)

def shortestFrom (x : Magnitude) : (steps : Nat) → (place : Int) → Decimal
  | 0, place => ⟨(x.onGrid? place).getD 0, place⟩
  | steps + 1, place =>
    match x.onGrid? place with
    | some digits => ⟨digits, place⟩
    | none => x.shortestFrom steps (place - 1)

/-- The decimal with the fewest digits that reads back, and the nearest of those. -/
def shortest (x : Magnitude) : Decimal :=
  x.shortestFrom 16 x.leadingPlace

end Magnitude

/-- The power of ten nearest to `10 ^ n`. -/
def powerOfTen (n : Nat) : Float := Float.ofScientific 1 false n

/-- Scales by powers of ten of at most 308 places, rounding at each; `none` when the result is out
of range. -/
def scale (x : Float) (exponent : Int) : Option Float :=
  if exponent.natAbs ≤ 308 then
    if 0 ≤ exponent then
      let y := x * powerOfTen exponent.natAbs
      if y.isInf then none else some y
    else some (x / powerOfTen exponent.natAbs)
  else if x == 0 then some x
  else if 0 ≤ exponent then none
  else scale (x / powerOfTen 308) (exponent + 308)
termination_by (-exponent).toNat

/-- The bits of the double read for `significand * 10 ^ exponent`. -/
def ofDecimal? (negative : Bool) (significand : UInt64) (exponent : Int) : Option UInt64 :=
  (scale significand.toFloat exponent).map fun x => (if negative then -x else x).toBits

end Ucan.Binary64
