/-!
Positions in source text.

* `Position`: a line and a column, both counted from one.
* `Position.text`: the spelling of a position in messages.
-/

namespace Scriptlet

/-- A line and a column of source text. Columns count characters. -/
structure Position where
  line : Nat
  column : Nat
deriving DecidableEq, Repr

namespace Position

/-- Where source text begins. -/
def start : Position := ⟨1, 1⟩

/-- The spelling `line:column`. -/
def text (p : Position) : String := toString p.line ++ ":" ++ toString p.column

end Position

end Scriptlet
