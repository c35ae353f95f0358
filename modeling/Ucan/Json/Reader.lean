import Ucan.Json.Lexical
import Ucan.Text.Place

/-!
Readers of JSON text. A reader takes what it wants from the front of a text in one pass, so that of
two faults the first in the text is reported. A reader of containers is given the reader of what
stands inside them, or `none` where no more nesting is allowed.
-/

set_option autoImplicit false

namespace Ucan.Json

open Ascii

abbrev Reader (α : Type) := (s : Bytes) → Except Error (α × Rest s)

/-- How many containers may stand inside one another. -/
def maxDepth : Nat := 127

namespace Reader

variable {α β σ : Type}

def map (f : α → β) (read : Reader α) : Reader β := fun s =>
  match read s with
  | .ok (a, r) => .ok (f a, r)
  | .error e => .error e

/-- Goes on with what a value may be turned into; the fault stands where the value does. -/
def andThen (read : Reader α) (f : α → Except Error β) : Reader β := fun s =>
  match read s with
  | .ok (a, r) => (f a).map fun b => (b, r)
  | .error e => .error e

/-- What reads one level further in, if there is one. -/
def within {ρ : Type} (read : Nat → ρ) : Nat → Option ρ
  | 0 => none
  | depth + 1 => some (read depth)

/-! ## Arrays -/

/-- The elements from one on up to the closing bracket, after those `done` in reverse. -/
def elementsFrom {whole : Bytes} (element : Reader α) (done : List α) (s : Bytes)
    (h : s.length ≤ whole.length) : Except Error (List α × Rest whole) :=
  match element s with
  | .error e => .error e
  | .ok (a, r) =>
    match first? r.1 with
    | none => .error .endInList
    | some (b, t) =>
      if b = closeBracket then
        .ok ((a :: done).reverse, ⟨t.1, by have := r.2; have := t.2; omega⟩)
      else if b = comma then
        match first? t.1 with
        | none => .error .endInValue
        | some (c, _) =>
          if c = closeBracket then .error .trailingComma
          else
            elementsFrom element (a :: done) t.1 (by have := r.2; have := t.2; omega)
      else .error .expectedCommaOrBracket
termination_by s.length
decreasing_by have := r.2; have := t.2; omega

def elements (element : Reader α) : Reader (List α) := fun s =>
  match first? s with
  | none => .error .endInList
  | some (b, t) =>
    if b = closeBracket then .ok ([], t)
    else fromStart s (elementsFrom element [])

/-! ## Objects -/

/-- The members of an object from the name on whose quote was just read. The reader of a value may
depend on the name and on what the members before it made of the state. -/
def membersFrom {whole : Bytes} (member : σ → String → Except Error (Reader σ)) (state : σ)
    (s : Bytes) (h : s.length ≤ whole.length) : Except Error (σ × Rest whole) :=
  match takeString s with
  | .error e => .error e
  | .ok (name, r) =>
    match member state name with
    | .error e => .error e
    | .ok value =>
      match first? r.1 with
      | none => .error .endInObject
      | some (b, t) =>
        if b = colon then
          match value t.1 with
          | .error e => .error e
          | .ok (state, u) =>
            match first? u.1 with
            | none => .error .endInObject
            | some (c, v) =>
              if c = closeBrace then
                .ok (state, ⟨v.1, by
                  have := r.2; have := t.2; have := u.2; have := v.2; omega⟩)
              else if c = comma then
                match first? v.1 with
                | none => .error .endInValue
                | some (d, w) =>
                  if d = quote then
                    membersFrom member state w.1 (by
                      have := r.2; have := t.2; have := u.2; have := v.2; have := w.2; omega)
                  else if d = closeBrace then .error .trailingComma
                  else .error .nameNotString
              else .error .expectedCommaOrBrace
        else .error .expectedColon
termination_by s.length
decreasing_by have := r.2; have := t.2; have := u.2; have := v.2; have := w.2; omega

def members (member : σ → String → Except Error (Reader σ)) (start : σ) : Reader σ := fun s =>
  match first? s with
  | none => .error .endInObject
  | some (b, t) =>
    if b = closeBrace then .ok (start, t)
    else if b = quote then membersFrom member start t.1 t.le
    else .error .nameNotString

/-! ## Any value -/

/-- Members in their order; of two members of one name the last stays. -/
def insertMember (value : Reader α) (state : List (String × α)) (name : String) :
    Except Error (Reader (List (String × α))) :=
  .ok (value.map fun a => insertEntry name a state)

def isNumberStart (b : UInt8) : Bool := b == minus || isDigit b

/-- A value whose containers hold what `inner` reads. -/
def valueOf (inner : Option (Reader Json)) : Reader Json := fun s =>
  match first? s with
  | none => .error .endInValue
  | some (b, t) =>
    if b = 0x6E then (takeWord (utf8 "ull") t.1).map fun r => (.null, t.after r)
    else if b = 0x74 then (takeWord (utf8 "rue") t.1).map fun r => (.bool true, t.after r)
    else if b = 0x66 then (takeWord (utf8 "alse") t.1).map fun r => (.bool false, t.after r)
    else if isNumberStart b then
      match takeNumber (b :: t.1) with
      | .error e => .error e
      | .ok (n, r) => .ok (.number n, t.afterFirst r)
    else if b = quote then (takeString t.1).map fun (text, r) => (.string text, t.trans r)
    else if b = openBracket then
      match inner with
      | none => .error .tooDeep
      | some inner => (elements inner t.1).map fun (es, r) => (.array es, t.trans r)
    else if b = openBrace then
      match inner with
      | none => .error .tooDeep
      | some inner =>
        (members (insertMember inner) [] t.1).map fun (ms, r) => (.object ms, t.trans r)
    else .error .expectedValue

/-- Any value in which at most `depth` containers stand inside one another. -/
def value : (depth : Nat) → Reader Json
  | 0 => valueOf none
  | depth + 1 => valueOf (some (value depth))

theorem value_eq (depth : Nat) : value depth = valueOf (within value depth) := by
  cases depth <;> rfl

/-! ## Wanted values -/

/-- The fault of a value that is not what is wanted. One that cannot be read has its own. -/
def mismatch (wanted : String) (s : Bytes) : Error :=
  let found (f : Found) : Error := .invalidType f wanted
  match first? s with
  | none => .endInValue
  | some (b, t) =>
    let word (text : String) (f : Found) : Error :=
      match takeWord (utf8 text) t.1 with
      | .ok _ => found f
      | .error e => e
    if b = 0x6E then word "ull" .null
    else if b = 0x74 then word "rue" (.bool true)
    else if b = 0x66 then word "alse" (.bool false)
    else if isNumberStart b then
      match takeNumber (b :: t.1) with
      | .ok (n, _) => found (.number n)
      | .error e => e
    else if b = quote then
      match takeString t.1 with
      | .ok (text, _) => found (.string text)
      | .error e => e
    else if b = openBracket then found .sequence
    else if b = openBrace then found .map
    else .expectedValue

def string : Reader String := fun s =>
  match first? s with
  | none => .error .endInValue
  | some (b, t) =>
    if b = quote then (takeString t.1).map fun (text, r) => (text, t.trans r)
    else .error (mismatch "a string" s)

def uint64 : Reader UInt64 := fun s =>
  match first? s with
  | none => .error .endInValue
  | some (b, t) =>
    if isNumberStart b then
      match takeNumber (b :: t.1) with
      | .error e => .error e
      | .ok (.integer n _, r) =>
        if 0 ≤ n then .ok (n.toNat.toUInt64, t.afterFirst r)
        else .error (.negative n "u64")
      | .ok (.double bits, _) => .error (.invalidType (.number (.double bits)) "u64")
    else .error (mismatch "u64" s)

def option (read : Reader α) : Reader (Option α) := fun s =>
  match first? s with
  | none => .error .endInValue
  | some (b, t) =>
    if b = 0x6E then (takeWord (utf8 "ull") t.1).map fun r => (none, t.after r)
    else read.map some s

def list (element : Option (Reader α)) : Reader (List α) := fun s =>
  match first? s with
  | none => .error .endInValue
  | some (b, t) =>
    if b = openBracket then
      match element with
      | none => .error .tooDeep
      | some element => (elements element t.1).map fun (es, r) => (es, t.trans r)
    else .error (mismatch "a sequence" s)

/-- An object whose members are read by `member`, and that is called `wanted` when it is missing. -/
def object (wanted : String) (member : Option (σ → String → Except Error (Reader σ)))
    (start : σ) : Reader σ := fun s =>
  match first? s with
  | none => .error .endInValue
  | some (b, t) =>
    if b = openBrace then
      match member with
      | none => .error .tooDeep
      | some member => (members member start t.1).map fun (state, r) => (state, t.trans r)
    else .error (mismatch wanted s)

/-- Members of any names in their order; of two members of one name the last stays. -/
def dict (value : Option (Reader α)) : Reader (Dict α) :=
  object "a map" (value.map fun value d name => .ok (value.map (d.insert name))) .empty

def memberDict (depth : Nat) : Reader Members := dict (within value depth)

/-- A string that is read further. Errors name no places, so a reason that ends with one loses it. -/
def textOf {ε : Type} (parse : String → Except ε α) (reason : ε → String) : Reader α :=
  string.andThen fun text =>
    match parse text with
    | .ok a => .ok a
    | .error e => .error (.invalidText (Text.withoutPlace (reason e)))

def once (name : String) (present : Bool) (read : Reader α) : Except Error (Reader α) :=
  if present then .error (.duplicateField name) else .ok read

/-- The whole text is one value, with perhaps space around it. -/
def parse (read : Reader α) (s : Bytes) : Except Error α :=
  match read s with
  | .error e => .error e
  | .ok (a, r) => if (first? r.1).isNone then .ok a else .error .trailingCharacters

end Reader

def required {α : Type} (name : String) : Option α → Except Error α
  | some a => .ok a
  | none => .error (.missingField name)

def parseMembers (s : Bytes) : Except Error Members := Reader.parse (Reader.memberDict maxDepth) s

def parse (s : Bytes) : Except Error Json := Reader.parse (Reader.value maxDepth) s

end Ucan.Json
