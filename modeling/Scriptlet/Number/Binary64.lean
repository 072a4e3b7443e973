/-!
Floating-point numbers of 64 bits, read through natural numbers.

The sign aside, a number is stored as a pattern: an exponent of 11 binary
digits above a fraction of 52. Patterns are ordered as the numbers they stand
for, so rounding can be done on them.

* `units`: a finite pattern as a count of the least positive number `2 ^ -1074`.
* `nearest`: the pattern of the number nearest to a quotient of naturals; a tie
  goes to the even pattern, and what lies beyond the finite numbers to `infinity`.
* `pattern`, `isNegative`, `ofPattern`: between floats and patterns.
-/

namespace Scriptlet.Binary64

/-- The pattern of infinity: smaller patterns are finite, larger ones are not
numbers. -/
def infinity : Nat := 2047 * Nat.pow 2 52

/-- Binary places that write every finite number exactly. Powers of it are
computed by running only, never by unfolding. -/
@[irreducible] def finestPlaces : Nat := 1074

/-- How many least units make one. -/
def unitsPerOne : Nat := Nat.pow 2 finestPlaces

/-- The number that a finite pattern stands for, counted in least units. -/
def units (pattern : Nat) : Nat :=
  let unit := Nat.pow 2 52
  if pattern / unit = 0 then pattern
  else (unit + pattern % unit) * Nat.pow 2 (pattern / unit - 1)

/-- The integer nearest to `n / d`, the even one of two equally near. -/
def roundHalfEven (n d : Nat) : Nat :=
  if 2 * (n % d) < d ∨ 2 * (n % d) = d ∧ n / d % 2 = 0 then n / d else n / d + 1

/-- How many binary digits of a count of least units have no place in a
pattern, which holds 53 of them. -/
def excess (count : Nat) : Nat := count.log2 - 52

/-- The pattern of the number nearest to `n / d`. A carry out of the fraction
moves into the exponent by itself, because the two are adjacent. -/
def nearest (n d : Nat) : Nat :=
  let shift := excess (n * unitsPerOne / d)
  min (shift * Nat.pow 2 52 + roundHalfEven (n * unitsPerOne) (d * Nat.pow 2 shift)) infinity

/-- The sign bit is set, as it is for negative zero. -/
def isNegative (x : Float) : Bool := Nat.pow 2 63 ≤ x.toBits.toNat

/-- The stored digits of a float without its sign. -/
def pattern (x : Float) : Nat := x.toBits.toNat % Nat.pow 2 63

/-- The float of positive sign with the given pattern. -/
def ofPattern (pattern : Nat) : Float := Float.ofBits (UInt64.ofNat pattern)

end Scriptlet.Binary64
