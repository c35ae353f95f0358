import Ucan.Json.Reader

/-!
Passing over a value that nobody wants. Containers may stand inside one another as deep as they
like, and of strings and numbers only the form is looked at.
-/

set_option autoImplicit false

namespace Ucan.Json

open Ascii

inductive Frame where
  | array
  | object
  deriving DecidableEq

namespace Frame

def close : Frame → UInt8
  | array => closeBracket
  | object => closeBrace

def unfinished : Frame → Error
  | array => .endInList
  | object => .endInObject

/-- What stands after one of its values neither goes on nor closes it. -/
def unseparated : Frame → Error
  | array => .expectedCommaOrBracket
  | object => .expectedCommaOrBrace

end Frame

def skipAtom (s : Bytes) : Except Error (Rest s) :=
  match first? s with
  | none => .error .endInValue
  | some (b, t) =>
    if b = 0x6E then (takeWord (utf8 "ull") t.1).map t.after
    else if b = 0x74 then (takeWord (utf8 "rue") t.1).map t.after
    else if b = 0x66 then (takeWord (utf8 "alse") t.1).map t.after
    else if Reader.isNumberStart b then
      match takeNumeral (b :: t.1) with
      | .ok (_, r) => .ok (t.afterFirst r)
      | .error _ => .error .invalidNumber
    else if b = quote then (skipString t.1).map t.trans
    else .error .expectedValue

def skipName (s : Bytes) : Except Error (Rest s) :=
  match first? s with
  | none => .error .endInObject
  | some (b, t) =>
    if b = quote then do
      let r ← skipString t.1
      match first? r.1 with
      | none => .error .endInObject
      | some (c, u) => if c = colon then .ok (t.trans (r.trans u)) else .error .expectedColon
    else .error .nameNotString

/-- How a value begins: with all there is of it, or inside of a container that is not empty. -/
inductive Start where
  | whole
  | inside (frame : Frame)
  deriving DecidableEq

/-- Passes over an opening bracket or brace that was just read, up to the first value inside. -/
def skipOpening (frame : Frame) (s : Bytes) : Except Error (Start × Remainder s) :=
  match first? s with
  | none => .error frame.unfinished
  | some (b, t) =>
    if b = frame.close then .ok (.whole, t.toRemainder)
    else match frame with
      | .array => .ok (.inside frame, Remainder.all s)
      | .object => (skipName s).map fun r => (.inside frame, r.toRemainder)

def skipStart (s : Bytes) : Except Error (Start × Rest s) :=
  match first? s with
  | none => .error .endInValue
  | some (b, t) =>
    if b = openBracket then (skipOpening .array t.1).map fun (start, r) => (start, t.after r)
    else if b = openBrace then (skipOpening .object t.1).map fun (start, r) => (start, t.after r)
    else (skipAtom s).map fun r => (.whole, r)

/-- Passes over what stands after a value in a container: the container has another, or it ends. -/
def skipNext (frame : Frame) (s : Bytes) : Except Error (Bool × Rest s) :=
  match first? s with
  | none => .error frame.unfinished
  | some (b, t) =>
    if b = comma then
      match frame with
      | .array => .ok (true, t)
      | .object => (skipName t.1).map fun r => (true, t.trans r)
    else if b = frame.close then .ok (false, t)
    else .error frame.unseparated

mutual

/-- Passes over a value, and then over what is left of the open containers. -/
def skipFrom {whole : Bytes} (frames : List Frame) (s : Bytes) (h : s.length ≤ whole.length) :
    Except Error (Rest whole) :=
  match skipStart s with
  | .error e => .error e
  | .ok (.whole, r) => skipAfter frames r.1 (r.lt_of h)
  | .ok (.inside frame, r) => skipFrom (frame :: frames) r.1 (r.le_of h)
termination_by s.length
decreasing_by all_goals exact r.2

/-- Passes over what is left of the open containers, after one of the values of the last. -/
def skipAfter {whole : Bytes} (frames : List Frame) (s : Bytes) (h : s.length < whole.length) :
    Except Error (Rest whole) :=
  match frames with
  | [] => .ok ⟨s, h⟩
  | frame :: outer =>
    match skipNext frame s with
    | .error e => .error e
    | .ok (true, r) => skipFrom (frame :: outer) r.1 (r.le_of_lt h)
    | .ok (false, r) => skipAfter outer r.1 (r.lt_of_lt h)
termination_by s.length
decreasing_by all_goals exact r.2

end

def Reader.skip : Reader Unit := fun s =>
  (fromStart s (skipFrom [])).map fun r => ((), r)

end Ucan.Json
