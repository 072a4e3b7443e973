import Scriptlet.Environment
import Scriptlet.Program.Basic

/-!
The value of an expression.

* `UnaryOp.apply`, `BinaryOp.apply`: operators on values.
* `Expr.evaluate`: the value of an expression in an environment. Operands are
  evaluated from left to right, and the environment that assignments have left
  behind is kept also when a fault arises.
-/

namespace Scriptlet

/-- The value of an operator before an operand. -/
def UnaryOp.apply (op : UnaryOp) (operator : Token) (operand : Value) : Except Fault Value :=
  match op with
  | .negate =>
    match operand with
    | .number x => .ok (.number (-x))
    | _ => .error (.operandNotNumber operator)
  | .not => .ok (.bool (!operand.isTruthy))

/-- A sum of numbers, or the joint text of a string and a string or number. -/
def Value.add (operator : Token) : Value → Value → Except Fault Value
  | .number x, .number y => .ok (.number (x + y))
  | .string s, .string t => .ok (.string (s ++ t))
  | .string s, .number y => .ok (.string (s ++ (Value.number y).text))
  | .number x, .string t => .ok (.string ((Value.number x).text ++ t))
  | _, _ => .error (.operandsNotNumbersOrStrings operator)

/-- An operation that needs two numbers. -/
def Value.onNumbers (operator : Token) (f : Float → Float → Value) :
    Value → Value → Except Fault Value
  | .number x, .number y => .ok (f x y)
  | _, _ => .error (.operandsNotNumbers operator)

/-- The value of an operator between operands. -/
def BinaryOp.apply (op : BinaryOp) (operator : Token) (left right : Value) :
    Except Fault Value :=
  match op with
  | .add => left.add operator right
  | .sub => Value.onNumbers operator (fun x y => .number (x - y)) left right
  | .mul => Value.onNumbers operator (fun x y => .number (x * y)) left right
  | .div => Value.onNumbers operator (fun x y => .number (x / y)) left right
  | .less => Value.onNumbers operator (fun x y => .bool (x < y)) left right
  | .greater => Value.onNumbers operator (fun x y => .bool (y < x)) left right
  | .lessEqual => Value.onNumbers operator (fun x y => .bool (x ≤ y)) left right
  | .greaterEqual => Value.onNumbers operator (fun x y => .bool (y ≤ x)) left right
  | .equal => .ok (.bool (left.equals right))
  | .notEqual => .ok (.bool (!left.equals right))

/-- The value of an expression, or the fault that stopped its evaluation, and
the environment afterwards. -/
def Expr.evaluate : Expr → Environment → Except Fault Value × Environment
  | .literal value, env => (.ok value, env)
  | .grouping inner, env => inner.evaluate env
  | .unary op operator operand, env =>
    match operand.evaluate env with
    | (.error fault, env) => (.error fault, env)
    | (.ok value, env) => (op.apply operator value, env)
  | .binary op operator left right, env =>
    match left.evaluate env with
    | (.error fault, env) => (.error fault, env)
    | (.ok leftValue, env) =>
      match right.evaluate env with
      | (.error fault, env) => (.error fault, env)
      | (.ok rightValue, env) => (op.apply operator leftValue rightValue, env)
  | .read name, env => (env.get name, env)
  | .assign name expr, env =>
    match expr.evaluate env with
    | (.error fault, env) => (.error fault, env)
    | (.ok value, env) =>
      match env.assign name value with
      | .error fault => (.error fault, env)
      | .ok env => (.ok value, env)

end Scriptlet
