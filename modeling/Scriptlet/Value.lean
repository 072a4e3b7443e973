import Scriptlet.Number.Text

/-!
The values of the language.

* `Value`: nothing, truth values, numbers and strings.
* `Value.kind`: which of the four a value is.
* `Value.text`: what printing shows.
* `Value.equals`: equality as programs see it, by which a value that is not a
  number differs from itself and the two zeros agree.
-/

namespace Scriptlet

/-- The kinds of values. -/
inductive Value.Kind where
  | nil
  | boolean
  | number
  | string
deriving DecidableEq, Repr

/-- The name of a kind of values. -/
def Value.Kind.name : Value.Kind → String
  | nil => "nil"
  | boolean => "boolean"
  | number => "number"
  | string => "string"

/-- A value of the language. -/
inductive Value where
  | nil
  | bool (value : Bool)
  | number (value : Float)
  | string (text : String)
deriving DecidableEq

namespace Value

/-- Which kind a value is of. -/
def kind : Value → Kind
  | nil => .nil
  | bool _ => .boolean
  | number _ => .number
  | string _ => .string

/-- Every value but nothing and falsehood counts as true. -/
def isTruthy : Value → Bool
  | nil => false
  | bool value => value
  | _ => true

/-- The number that a value is. -/
def toNumber? : Value → Option Float
  | number value => some value
  | _ => none

/-- Numbers as programs print them. -/
def numberFormat : NumberFormat := ⟨"NaN", "Infinity"⟩

/-- A number as programs print it, a whole one without a fraction. -/
def numberText (x : Float) : String :=
  let text := numberFormat.text x
  if Binary64.pattern x < Binary64.infinity then withoutZeroFraction text else text

/-- What printing shows of a value. -/
def text : Value → String
  | nil => "nil"
  | bool true => "true"
  | bool false => "false"
  | number value => numberText value
  | string text => text

/-- Equality as programs see it: of one kind, and equal there. -/
def equals : Value → Value → Bool
  | nil, nil => true
  | bool a, bool b => a == b
  | number a, number b => a == b
  | string a, string b => a == b
  | _, _ => false

end Value

end Scriptlet
