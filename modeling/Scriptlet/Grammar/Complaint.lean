import Scriptlet.Diagnostic

/-!
Complaints about tokens that do not fit the grammar.

* `Expectation`: what the grammar asks for, with `Expectation.message` as its
  wording.
* `Complaint`: an expectation and the token found in its place.
* `Complaint.diagnostic`: what is told to the user.
-/

namespace Scriptlet

/-- What the grammar asks for. -/
inductive Expectation where
  | expression
  | closingParen
  | assignmentTarget
  | variableName
  | semicolonAfterDeclaration
  | semicolonAfterValue
  | semicolonAfterExpression
  | closingBrace
deriving DecidableEq, Repr

/-- The wording of an expectation that is not met. -/
def Expectation.message : Expectation → String
  | expression => "Expect expression."
  | closingParen => "Expect ')' after expression."
  | assignmentTarget => "Invalid assignment target."
  | variableName => "Expect variable name."
  | semicolonAfterDeclaration => "Expect ';' after variable declaration."
  | semicolonAfterValue => "Expect ';' after value."
  | semicolonAfterExpression => "Expect ';' after expression."
  | closingBrace => "Expect '\x7d' after block."

/-- An expectation and the token found in its place. -/
structure Complaint where
  token : Token
  expectation : Expectation
deriving DecidableEq

/-- What is told to the user about a complaint. -/
def Complaint.diagnostic (c : Complaint) : Diagnostic :=
  .atToken c.token c.expectation.message

end Scriptlet
