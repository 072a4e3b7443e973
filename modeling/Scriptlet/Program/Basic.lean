import Scriptlet.Operator
import Scriptlet.Token.Basic
import Scriptlet.Value

/-!
Programs as trees.

Nodes that can fail when they are run keep the token that a fault is blamed on.

* `Expr`: expressions.
* `Statement`: statements; a program is a list of them.
-/

namespace Scriptlet

/-- An expression. -/
inductive Expr where
  | literal (value : Value)
  | grouping (inner : Expr)
  | unary (op : UnaryOp) (operator : Token) (operand : Expr)
  | binary (op : BinaryOp) (operator : Token) (left right : Expr)
  /-- The value of a variable. -/
  | read (name : Token)
  /-- A variable gets a new value, which is also the value of the expression. -/
  | assign (name : Token) (value : Expr)

/-- A statement. -/
inductive Statement where
  /-- An expression run for its effect. -/
  | expression (expr : Expr)
  | print (expr : Expr)
  /-- A new variable; without an initial value it holds nothing. -/
  | declare (name : Token) (initial : Option Expr)
  | block (body : List Statement)

end Scriptlet
