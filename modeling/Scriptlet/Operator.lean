import Scriptlet.Token.Kind

/-!
The operators of the language and how tightly they bind.

* `UnaryOp`, `BinaryOp`: the operators, each written as one symbol.
* `Precedence`: the four levels of binary operators, from the loosest on.
* `UnaryOp.ofKind?`, `BinaryOp.ofKind?`: the operator that a token stands for.
-/

namespace Scriptlet

/-- Operators before one operand. -/
inductive UnaryOp where
  | negate
  | not
deriving DecidableEq, Repr

namespace UnaryOp

/-- How the operator is written. -/
def symbol : UnaryOp → Symbol
  | negate => .minus
  | not => .bang

/-- How the operator is written. -/
def text (op : UnaryOp) : String := String.ofList op.symbol.chars

/-- The operator that a token of a kind is before an operand. -/
def ofKind? : Token.Kind → Option UnaryOp
  | .symbol .minus => some negate
  | .symbol .bang => some not
  | _ => none

/-- A token is an operator exactly if it is the symbol of that operator. -/
theorem ofKind?_eq_some_iff {kind : Token.Kind} {op : UnaryOp} :
    ofKind? kind = some op ↔ kind = .symbol op.symbol := by
  constructor
  · intro h
    rw [ofKind?.eq_def] at h
    split at h <;> simp_all [symbol]
    all_goals (subst h; rfl)
  · rintro rfl
    cases op <;> rfl

end UnaryOp

/-- How tightly a binary operator binds, from the loosest on. -/
inductive Precedence where
  | equality
  | comparison
  | term
  | factor
deriving DecidableEq, Repr

namespace Precedence

/-- The next tighter level. -/
def tighter? : Precedence → Option Precedence
  | equality => some comparison
  | comparison => some term
  | term => some factor
  | factor => none

/-- How many levels are tighter. -/
def above : Precedence → Nat
  | equality => 3
  | comparison => 2
  | term => 1
  | factor => 0

theorem above_le (p : Precedence) : p.above ≤ 3 := by
  cases p <;> decide

theorem above_of_tighter {p q : Precedence} (h : p.tighter? = some q) :
    p.above = q.above + 1 := by
  cases p <;> simp_all [tighter?] <;> subst h <;> rfl

end Precedence

/-- Operators between two operands. -/
inductive BinaryOp where
  | add | sub | mul | div
  | less | greater | lessEqual | greaterEqual
  | equal | notEqual
deriving DecidableEq, Repr

namespace BinaryOp

/-- How the operator is written. -/
def symbol : BinaryOp → Symbol
  | add => .plus
  | sub => .minus
  | mul => .star
  | div => .slash
  | less => .less
  | greater => .greater
  | lessEqual => .lessEqual
  | greaterEqual => .greaterEqual
  | equal => .equalEqual
  | notEqual => .bangEqual

/-- How the operator is written. -/
def text (op : BinaryOp) : String := String.ofList op.symbol.chars

/-- The level of an operator. -/
def precedence : BinaryOp → Precedence
  | equal | notEqual => .equality
  | less | greater | lessEqual | greaterEqual => .comparison
  | add | sub => .term
  | mul | div => .factor

/-- The operator that a token of a kind is between operands. -/
def ofKind? : Token.Kind → Option BinaryOp
  | .symbol .plus => some add
  | .symbol .minus => some sub
  | .symbol .star => some mul
  | .symbol .slash => some div
  | .symbol .less => some less
  | .symbol .greater => some greater
  | .symbol .lessEqual => some lessEqual
  | .symbol .greaterEqual => some greaterEqual
  | .symbol .equalEqual => some equal
  | .symbol .bangEqual => some notEqual
  | _ => none

/-- A token is an operator exactly if it is the symbol of that operator. -/
theorem ofKind?_eq_some_iff {kind : Token.Kind} {op : BinaryOp} :
    ofKind? kind = some op ↔ kind = .symbol op.symbol := by
  constructor
  · intro h
    rw [ofKind?.eq_def] at h
    split at h <;> simp_all [symbol]
    all_goals (subst h; rfl)
  · rintro rfl
    cases op <;> rfl

/-- The operator of the given level that a token of a kind is. -/
def ofKindAt? (level : Precedence) (kind : Token.Kind) : Option BinaryOp :=
  (ofKind? kind).filter (·.precedence == level)

end BinaryOp

end Scriptlet
