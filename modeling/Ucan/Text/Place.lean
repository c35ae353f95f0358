/-!
The place in a text that a message may name at its end, as in `no value at line 2 column 7`.
-/

set_option autoImplicit false

namespace Ucan.Text

/-- Takes the digits of a number off the end of a text that is given backwards. The number has to
fit into 64 bits. -/
def dropNumber? (backwards : List Char) : Option (List Char) :=
  let digits := backwards.takeWhile Char.isDigit
  let n := digits.foldr (fun d n => 10 * n + (d.toNat - '0'.toNat)) 0
  if digits ≠ [] ∧ n < UInt64.size then some (backwards.drop digits.length) else none

def dropWord? (word : String) (backwards : List Char) : Option (List Char) :=
  let word := word.toList.reverse
  if word.isPrefixOf backwards then some (backwards.drop word.length) else none

def withoutPlace (message : String) : String :=
  let front? := do
    let line ← dropWord? " column " (← dropNumber? message.toList.reverse)
    dropWord? " at line " (← dropNumber? line)
  front?.elim message fun front => String.ofList front.reverse

end Ucan.Text
