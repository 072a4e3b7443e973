import Scriptlet.Fault
import Scriptlet.Program.Basic
import Scriptlet.Proofs.Token.Moved

/-!
Programs with other tokens and other literals.

Programs of one shape differ in the tokens that their nodes keep and in the values of
their literals. Both are replaced at once, and everything else stays.

* `Expr.map`, `Statement.map`: the program with every token and every literal
  replaced.
* `Expr.moved`, `Statement.moved`: the program with its tokens at other positions.
* `Fault.map`: the fault that the program with other tokens is blamed for.
-/

namespace Scriptlet

/-- The expression with other tokens and other literals. -/
def Expr.map (f : Token → Token) (g : Value → Value) : Expr → Expr
  | .literal value => .literal (g value)
  | .grouping inner => .grouping (inner.map f g)
  | .unary op operator operand => .unary op (f operator) (operand.map f g)
  | .binary op operator left right => .binary op (f operator) (left.map f g) (right.map f g)
  | .read name => .read (f name)
  | .assign name value => .assign (f name) (value.map f g)

mutual

/-- The statement with other tokens and other literals. -/
def Statement.map (f : Token → Token) (g : Value → Value) : Statement → Statement
  | .expression expr => .expression (expr.map f g)
  | .print expr => .print (expr.map f g)
  | .declare name initial => .declare (f name) (initial.map (·.map f g))
  | .block body => .block (Statement.mapAll f g body)

/-- The statements with other tokens and other literals. -/
def Statement.mapAll (f : Token → Token) (g : Value → Value) : List Statement → List Statement
  | [] => []
  | statement :: rest => statement.map f g :: Statement.mapAll f g rest

end

/-- The expression with its tokens at other positions. -/
def Expr.moved (move : Position → Position) (expr : Expr) : Expr :=
  expr.map (Token.moved move) id

/-- The statement with its tokens at other positions. -/
def Statement.moved (move : Position → Position) (statement : Statement) : Statement :=
  statement.map (Token.moved move) id

lemma Statement.mapAll_eq_map (f : Token → Token) (g : Value → Value)
    (program : List Statement) : mapAll f g program = program.map (·.map f g) := by
  induction program with
  | nil => rw [mapAll, List.map_nil]
  | cons statement rest ih => rw [mapAll, List.map_cons, ih]

/-- The fault at another token. -/
def Fault.map (f : Token → Token) : Fault → Fault
  | operandNotNumber operator => operandNotNumber (f operator)
  | operandsNotNumbers operator => operandsNotNumbers (f operator)
  | operandsNotNumbersOrStrings operator => operandsNotNumbersOrStrings (f operator)
  | undefinedVariable name => undefinedVariable (f name)
  | alreadyDefined name => alreadyDefined (f name)
  | output cause => output cause

end Scriptlet
