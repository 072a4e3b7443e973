import Scriptlet.Number.Shortest

/-!
The text of a float: the shortest decimal that reads back, never with an
exponent, behind a minus where the sign bit is set.

* `NumberFormat`: the words for what has no digits.
* `NumberFormat.text`: the text of any float.
* `withoutZeroFraction`: whole numbers without a fraction.
-/

namespace Scriptlet

/-- How a float without digits is spelled. -/
structure NumberFormat where
  notANumber : String
  infinity : String

/-- The text of a float; what is not a number has no sign. -/
def NumberFormat.text (format : NumberFormat) (x : Float) : String :=
  let pattern := Binary64.pattern x
  if Binary64.infinity < pattern then format.notANumber
  else
    let magnitude :=
      if pattern = Binary64.infinity then format.infinity else (Decimal.shortest pattern).text
    if Binary64.isNegative x then "-" ++ magnitude else magnitude

/-- The text without a fraction of a single zero at its end. -/
def withoutZeroFraction (text : String) : String :=
  if ['.', '0'].isSuffixOf text.toList then String.ofList text.toList.dropLast.dropLast else text

end Scriptlet
