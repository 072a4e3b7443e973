import Scriptlet.Number.Binary64

/-!
Decimals in positional writing: digits, and perhaps a point and further digits.

* `Decimal`: a natural number of hundredths, thousandths, and so on.
* `Decimal.read?`: the decimal that a text of digits with at most one point writes.
* `Decimal.text`: the writing without zeros at the end of the fraction.
* `Decimal.toFloat`: the float nearest to a decimal.
-/

namespace Scriptlet

/-- The number `unscaled / 10 ^ places`. -/
structure Decimal where
  unscaled : Nat
  places : Nat

namespace Decimal

/-- The value of a row of decimal digits. -/
def digitsValue (digits : List Char) : Nat :=
  digits.foldl (fun n c => 10 * n + (c.toNat - '0'.toNat)) 0

/-- The text is made of digits, with at most one point among them. There is neither a
sign nor an exponent. -/
def isNumeral (text : List Char) : Bool :=
  text.any Char.isDigit && text.all (fun c => c.isDigit || c == '.') && text.count '.' ≤ 1

/-- The decimal written by digits, or by digits, a point and digits. -/
def read (text : List Char) : Decimal :=
  let whole := text.takeWhile Char.isDigit
  let fraction := (text.dropWhile Char.isDigit).drop 1
  ⟨digitsValue (whole ++ fraction), fraction.length⟩

/-- The decimal that a text writes; nothing if it is no numeral. -/
def read? (text : List Char) : Option Decimal := if isNumeral text then some (read text) else none

/-- The float nearest to a decimal; infinity above the largest one. -/
def toFloat (d : Decimal) : Float :=
  Binary64.ofPattern (Binary64.nearest d.unscaled (Nat.pow 10 d.places))

/-- The digits of `n / 10 ^ places` after the point, for `n < 10 ^ places`. The
writing ends as soon as nothing is left, so it has no zeros at its end. -/
def fractionDigits : (places n : Nat) → List Char
  | 0, _ => []
  | places + 1, n =>
    if n = 0 then []
    else Nat.digitChar (n / Nat.pow 10 places) :: fractionDigits places (n % Nat.pow 10 places)

/-- The positional writing of a decimal. -/
def chars (d : Decimal) : List Char :=
  let whole := Nat.toDigits 10 (d.unscaled / Nat.pow 10 d.places)
  match fractionDigits d.places (d.unscaled % Nat.pow 10 d.places) with
  | [] => whole
  | digits => whole ++ '.' :: digits

/-- The positional writing of a decimal as a string. -/
def text (d : Decimal) : String := String.ofList d.chars

end Decimal

end Scriptlet
