/-
JSON values as a program sees them after parsing.

Reading a field, assigning one, and turning a value into text are the operations of the
language.  None of the values is callable, so an object that brings a `toString` of its
own cannot be turned into text, and neither can an array that holds one.
-/
import Mathlib.Data.Rat.Defs

namespace PocArchitecture

inductive Json where
  | null
  | bool (b : Bool)
  | number (n : Rat)
  | string (s : String)
  | array (elements : List Json)
  | object (fields : List (String × Json))

namespace Json

def isNull : Json → Bool
  | null => true
  | _ => false

/-- The field of an object.  `none` is `undefined`. -/
def field (key : String) : Json → Option Json
  | object fields => (fields.find? (·.1 = key)).map (·.2)
  | _ => none

/-- Assignment to a field in strict mode, which throws on a value that is neither an
object nor an array.  The fields an array may have beside its elements are not kept. -/
def assign (j : Json) (key : String) (value : Json) : Option Json :=
  match j with
  | object fields => some (object (fields.filter (·.1 ≠ key) ++ [(key, value)]))
  | array elements => some (array elements)
  | _ => none

mutual

/-- The value can be turned into text. -/
def hasText : Json → Bool
  | array elements => allHaveText elements
  | object fields => !fields.any (·.1 = "toString")
  | _ => true

def allHaveText : List Json → Bool
  | [] => true
  | element :: elements => hasText element && allHaveText elements

end

end Json

end PocArchitecture
