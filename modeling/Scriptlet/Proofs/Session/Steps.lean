import Mathlib.Tactic.Lemma
import Scriptlet.Session.Basic

/-!
Runs in steps.

An expression or a statement is run in steps, each of which goes on with what the one
before it has left, unless that has failed.

* `andThen`: a step behind another.
* `Expr.evaluate_binary`, `Statement.executeAll_cons`, …: the steps of expressions and
  statements.
* `Statement.executeAll_append`: statements behind others.
-/

namespace Scriptlet

/-- A run goes on with its result, unless it has failed. -/
def andThen {α β σ : Type} (run : Except Fault α × σ) (next : α → σ → Except Fault β × σ) :
    Except Fault β × σ :=
  match run with
  | (.error fault, s) => (.error fault, s)
  | (.ok a, s) => next a s

/-! ### Expressions -/

namespace Expr

variable (env : Environment)

lemma evaluate_unary (op : UnaryOp) (operator : Token) (operand : Expr) :
    (unary op operator operand).evaluate env =
      andThen (operand.evaluate env) fun value after => (op.apply operator value, after) := by
  rw [evaluate]
  rcases operand.evaluate env with ⟨fault | value, after⟩ <;> rfl

lemma evaluate_binary (op : BinaryOp) (operator : Token) (left right : Expr) :
    (binary op operator left right).evaluate env =
      andThen (left.evaluate env) fun leftValue between =>
        andThen (right.evaluate between) fun rightValue after =>
          (op.apply operator leftValue rightValue, after) := by
  rw [evaluate]
  rcases left.evaluate env with ⟨fault | leftValue, between⟩
  · rfl
  · dsimp only [andThen]
    rcases right.evaluate between with ⟨fault | rightValue, after⟩ <;> rfl

lemma evaluate_assign (name : Token) (value : Expr) :
    (assign name value).evaluate env =
      andThen (value.evaluate env) fun result between =>
        match between.assign name result with
        | .error fault => (.error fault, between)
        | .ok after => (.ok result, after) := by
  rw [evaluate]
  rcases value.evaluate env with ⟨fault | result, between⟩ <;> rfl

end Expr

/-! ### Statements -/

namespace Statement

variable {W : Type} [Sink W] (session : Session W)

lemma execute_expression (expr : Expr) :
    (expression expr).execute session =
      andThen (session.evaluate expr) fun _ after => (.ok (), after) := by
  rw [execute]
  rcases session.evaluate expr with ⟨fault | value, after⟩ <;> rfl

lemma execute_print (expr : Expr) :
    (print expr).execute session =
      andThen (session.evaluate expr) fun value after => after.print value.text := by
  rw [execute]
  rcases session.evaluate expr with ⟨fault | value, after⟩ <;> rfl

lemma execute_declare (name : Token) (initial : Expr) :
    (declare name (some initial)).execute session =
      andThen (session.evaluate initial) fun value after => after.define name value := by
  rw [execute]
  rcases session.evaluate initial with ⟨fault | value, after⟩ <;> rfl

lemma executeAll_cons (first : Statement) (rest : List Statement) :
    executeAll (first :: rest) session =
      andThen (first.execute session) fun _ between => executeAll rest between := by
  rw [executeAll]
  rcases first.execute session with ⟨fault | done, between⟩ <;> rfl

/-- Statements behind others are run if those succeed. -/
lemma executeAll_append (program more : List Statement) :
    executeAll (program ++ more) session =
      andThen (executeAll program session) fun _ between => executeAll more between := by
  induction program generalizing session with
  | nil => rfl
  | cons first rest ih =>
      rw [List.cons_append, executeAll_cons, executeAll_cons]
      rcases first.execute session with ⟨fault | done, between⟩
      · rfl
      · exact ih between

end Statement

end Scriptlet
