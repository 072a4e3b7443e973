import Scriptlet.Program.Basic

/-!
Programs as parenthesised text: every node is a parenthesis that starts with
what the node is, and literals stand for themselves.

* `Expr.render`, `Statement.render`: the text of a node.
-/

namespace Scriptlet

/-- The parenthesised text of an expression. -/
def Expr.render : Expr → String
  | .literal value => value.text
  | .grouping inner => "(group " ++ inner.render ++ ")"
  | .unary op _ operand => "(" ++ op.text ++ " " ++ operand.render ++ ")"
  | .binary op _ left right =>
    "(" ++ op.text ++ " " ++ left.render ++ " " ++ right.render ++ ")"
  | .read name => "(" ++ name.lexeme ++ ")"
  | .assign name value => "(= " ++ name.lexeme ++ " " ++ value.render ++ ")"

mutual

/-- The parenthesised text of a statement. -/
def Statement.render : Statement → String
  | .expression expr => "(; " ++ expr.render ++ ")"
  | .print expr => "(print " ++ expr.render ++ ")"
  | .declare name (some initial) => "(var " ++ name.lexeme ++ " " ++ initial.render ++ ")"
  | .declare name none => "(var " ++ name.lexeme ++ ")"
  | .block body => "(block" ++ Statement.renderBody body ++ ")"

/-- The statements of a block, each behind a space. -/
def Statement.renderBody : List Statement → String
  | [] => ""
  | statement :: body => " " ++ statement.render ++ Statement.renderBody body

end

end Scriptlet
