import Scriptlet.Grammar.Parsed
import Scriptlet.Program.Basic

/-!
The grammar of expressions.

    expression := identifier "=" expression | binary equality
    binary p   := operand p (operator of level p, operand p)*
    operand p  := binary of the next tighter level, or unary
    unary      := ("-" | "!") unary | primary
    primary    := "true" | "false" | "nil" | number | string | identifier
                | "(" expression ")"

Every rule looks at one token ahead. The end of the input is the token `stop`.
The rules call each other on fewer tokens, or on the same tokens in the order
above, so the recursion is bounded by the tokens and, among rules on the same
tokens, by their place in that order.

* `Grammar.expression`: reads an expression.
* `Grammar.binary`, `Grammar.chain`: operators of one level, grouped to the left.
* `Grammar.unary`, `Grammar.primary`: the tightest phrases.
-/

namespace Scriptlet.Grammar

/-- An assignment to what stands before the equals sign. Only a variable can be
assigned to; another phrase is kept without the assignment, and noted. -/
def assignment (equals : Token) (target value : Expr) : Expr × List Complaint :=
  match target with
  | .read name => (.assign name value, [])
  | other => (other, [⟨equals, .assignmentTarget⟩])

/-- The value of the literal that a token carries; nothing if it carries none. -/
def literalValue : Option Literal → Value
  | some (.number value) => .number value
  | some (.string text) => .string text
  | none => .nil

mutual

/-- An assignment, or a phrase of binary operators. -/
def expression (stop : Token) (tokens : List Token) : Parsed tokens.length Expr :=
  match binary stop .equality tokens with
  | .failed cause notes rest within => .failed cause notes rest within
  | .done target notes [] shorter => .done target notes [] shorter
  | .done target notes (equals :: rest) shorter =>
    if equals.isSymbol .equal then
      match expression stop rest with
      | .failed cause later rest' within =>
        .failed cause (notes ++ later) rest' (by rw [List.length_cons] at shorter; omega)
      | .done value later rest' shorter' =>
        .done (assignment equals target value).1
          (notes ++ later ++ (assignment equals target value).2) rest'
          (by rw [List.length_cons] at shorter; omega)
    else .done target notes (equals :: rest) shorter
termination_by 11 * tokens.length + 10
decreasing_by
  · rw [Precedence.above]; omega
  · rw [List.length_cons] at shorter; omega

/-- Operands of a level with operators of that level between them. -/
def binary (stop : Token) (level : Precedence) (tokens : List Token) :
    Parsed tokens.length Expr :=
  match operand stop level tokens with
  | .failed cause notes rest within => .failed cause notes rest within
  | .done left notes rest shorter => (chain stop level left rest).after notes shorter
termination_by 11 * tokens.length + 2 * level.above + 3
decreasing_by
  · omega
  · omega

/-- The operators of a level that follow `left`, each with an operand. -/
def chain (stop : Token) (level : Precedence) (left : Expr) (tokens : List Token) :
    Parsed (tokens.length + 1) Expr :=
  match tokens with
  | [] => .done left [] [] (Nat.lt_succ_self _)
  | operator :: rest =>
    match BinaryOp.ofKindAt? level operator.kind with
    | none => .done left [] (operator :: rest) (Nat.lt_succ_self _)
    | some op =>
      match operand stop level rest with
      | .failed cause notes rest' within =>
        .failed cause notes rest' (by rw [List.length_cons]; omega)
      | .done right notes rest' shorter =>
        (chain stop level (.binary op operator left right) rest').after notes
          (by rw [List.length_cons]; omega)
termination_by 11 * tokens.length
decreasing_by
  · have := level.above_le; rw [List.length_cons]; omega
  · rw [List.length_cons]; omega

/-- What stands between operators of a level: a phrase of the next tighter one. -/
def operand (stop : Token) (level : Precedence) (tokens : List Token) :
    Parsed tokens.length Expr :=
  match h : level.tighter? with
  | some tighter =>
    have : level.above = tighter.above + 1 := Precedence.above_of_tighter h
    binary stop tighter tokens
  | none => unary stop tokens
termination_by 11 * tokens.length + 2 * level.above + 2
decreasing_by
  · omega
  · omega

/-- Operators before an operand, or a phrase without operators. -/
def unary (stop : Token) (tokens : List Token) : Parsed tokens.length Expr :=
  match tokens with
  | [] => .failed ⟨stop, .expression⟩ [] [] (Nat.le_refl _)
  | operator :: rest =>
    match UnaryOp.ofKind? operator.kind with
    | some op => ((unary stop rest).map (.unary op operator)).after [] (Nat.le_succ _)
    | none => primary stop operator rest
termination_by 11 * tokens.length + 1
decreasing_by
  · rw [List.length_cons]; omega
  · rw [List.length_cons]; omega

/-- A literal, a variable, or an expression in parentheses. -/
def primary (stop : Token) (token : Token) (rest : List Token) :
    Parsed (rest.length + 1) Expr :=
  match token.kind with
  | .keyword .false => .done (.literal (.bool false)) [] rest (Nat.lt_succ_self _)
  | .keyword .true => .done (.literal (.bool true)) [] rest (Nat.lt_succ_self _)
  | .keyword .nil => .done (.literal .nil) [] rest (Nat.lt_succ_self _)
  | .number => .done (.literal (literalValue token.literal)) [] rest (Nat.lt_succ_self _)
  | .string => .done (.literal (literalValue token.literal)) [] rest (Nat.lt_succ_self _)
  | .identifier => .done (.read token) [] rest (Nat.lt_succ_self _)
  | .symbol .leftParen =>
    (((expression stop rest).map .grouping).closedBy stop .rightParen .closingParen).after []
      (Nat.le_succ _)
  | _ => .failed ⟨token, .expression⟩ [] (token :: rest) (Nat.le_refl _)
termination_by 11 * (rest.length + 1)
decreasing_by omega

end

end Scriptlet.Grammar
