import Scriptlet.Number.Decimal

/-!
The shortest decimal that reads back as a given float.

Every finite float is a whole number of steps `10 ^ -1074`. A float is rounded
to coarser and coarser powers of ten of that step; the coarsest one on which a
neighbour of the float still reads back gives the fewest digits.

* `Decimal.exact`: the steps of a pattern.
* `Decimal.onGrid?`: the neighbour on one grid that reads back, the nearer of
  two, and the upper one of two equally near.
* `Decimal.shortest`: the neighbour on the coarsest grid that has one.
-/

namespace Scriptlet.Decimal

/-- Decimal places that write every finite float exactly: as many as binary
ones, because ten has one factor of two. -/
def finestPlaces : Nat := Binary64.finestPlaces

/-- The steps `10 ^ -1074` that make up the number of a finite pattern. -/
def exact (pattern : Nat) : Nat := Binary64.units pattern * Nat.pow 5 finestPlaces

/-- A count of steps is rounded to the given pattern. -/
def readsAs (pattern count : Nat) : Bool :=
  Binary64.nearest count (Nat.pow 10 finestPlaces) == pattern

/-- The multiple of `step` next to `count` that reads back, told by `reads`. -/
def onGrid? (reads : Nat → Bool) (count step : Nat) : Option Nat :=
  let low := count / step * step
  let high := low + step
  match reads low, reads high with
  | true, true => some (if count - low < high - count then low else high)
  | true, false => some low
  | false, true => some high
  | false, false => none

/-- The multiple of the largest power of ten, of at most `10 ^ zeros`, that
reads back; `count` itself does in any case. -/
def coarsest (reads : Nat → Bool) (count : Nat) : (zeros : Nat) → Nat
  | 0 => count
  | zeros + 1 =>
    match onGrid? reads count (Nat.pow 10 (zeros + 1)) with
    | some rounded => rounded
    | none => coarsest reads count zeros

/-- An exponent whose power of ten is above `count`, because a binary digit is
worth less than `30103 / 100000` of a decimal one. -/
def width (count : Nat) : Nat := (count.log2 + 1) * 30103 / 100000 + 1

/-- The decimal with the fewest digits that reads back as a finite pattern. -/
def shortest (pattern : Nat) : Decimal :=
  let count := exact pattern
  ⟨coarsest (readsAs pattern) count (width count), finestPlaces⟩

end Scriptlet.Decimal
