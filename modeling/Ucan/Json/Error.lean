import Ucan.Json.Printer
import Ucan.Text.Quoted

/-!
Why a text is not the JSON that was wanted.
-/

set_option autoImplicit false

namespace Ucan.Json

/-- A value that was read, as far as messages tell it. -/
inductive Found where
  | null
  | bool (value : Bool)
  | number (value : Number)
  | string (value : String)
  | sequence
  | map
  deriving DecidableEq

inductive Error where
  | endInList
  | endInObject
  | endInString
  | endInValue
  | expectedColon
  | expectedCommaOrBracket
  | expectedCommaOrBrace
  | expectedWord
  | expectedValue
  | invalidEscape
  | invalidNumber
  | numberOutOfRange
  | invalidUnicode
  | controlCharacter
  | nameNotString
  | loneSurrogate
  | trailingComma
  | trailingCharacters
  | unfinishedSurrogatePair
  | tooDeep
  | invalidType (found : Found) (wanted : String)
  | negative (value : Int) (wanted : String)
  | invalidLength (length : Nat) (wanted : String)
  | missingField (name : String)
  | duplicateField (name : String)
  -- A string that does not read as what it should name.
  | invalidText (reason : String)
  deriving DecidableEq

/-- The end of the text came too soon, the text is not JSON, or it is not the JSON that was wanted. -/
inductive Error.Category where
  | eof
  | syntactic
  | data
  deriving DecidableEq

def Error.category : Error → Category
  | endInList | endInObject | endInString | endInValue => .eof
  | invalidType .. | negative .. | invalidLength .. | missingField _ | duplicateField _
  | invalidText _ => .data
  | _ => .syntactic

/-- Numbers and words are shown between grave accents. -/
def marked (s : String) : String := "\x60" ++ s ++ "\x60"

def Found.describe : Found → String
  | null => "null"
  | bool b => "boolean " ++ marked (if b then "true" else "false")
  | number (.integer n _) => "integer " ++ marked (toString n)
  | number (.double bits) => "floating point " ++ marked (ofAscii (printDouble bits))
  | string s => "string " ++ Text.quoted s
  | sequence => "sequence"
  | map => "map"

def Error.message : Error → String
  | endInList => "EOF while parsing a list"
  | endInObject => "EOF while parsing an object"
  | endInString => "EOF while parsing a string"
  | endInValue => "EOF while parsing a value"
  | expectedColon => "expected " ++ marked ":"
  | expectedCommaOrBracket => "expected " ++ marked "," ++ " or " ++ marked "]"
  | expectedCommaOrBrace => "expected " ++ marked "," ++ " or " ++ marked "\x7d"
  | expectedWord => "expected ident"
  | expectedValue => "expected value"
  | invalidEscape => "invalid escape"
  | invalidNumber => "invalid number"
  | numberOutOfRange => "number out of range"
  | invalidUnicode => "invalid unicode code point"
  | controlCharacter => "control character (\\u0000-\\u001F) found while parsing a string"
  | nameNotString => "key must be a string"
  | loneSurrogate => "lone leading surrogate in hex escape"
  | trailingComma => "trailing comma"
  | trailingCharacters => "trailing characters"
  | unfinishedSurrogatePair => "unexpected end of hex escape"
  | tooDeep => "recursion limit exceeded"
  | invalidType found wanted => "invalid type: " ++ found.describe ++ ", expected " ++ wanted
  | negative n wanted =>
    "invalid value: integer " ++ marked (toString n) ++ ", expected " ++ wanted
  | invalidLength n wanted => "invalid length " ++ toString n ++ ", expected " ++ wanted
  | missingField name => "missing field " ++ marked name
  | duplicateField name => "duplicate field " ++ marked name
  | invalidText reason => reason

end Ucan.Json
