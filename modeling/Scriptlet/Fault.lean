import Scriptlet.Diagnostic

/-!
Faults: what ends a run.

* `Fault`: the causes, with the token to blame for all but a failing output.
* `Fault.message`: the wording of each cause.
* `Fault.diagnostic`: what is told to the user.
-/

namespace Scriptlet

/-- What ends a run. -/
inductive Fault where
  | operandNotNumber (operator : Token)
  | operandsNotNumbers (operator : Token)
  | operandsNotNumbersOrStrings (operator : Token)
  | undefinedVariable (name : Token)
  | alreadyDefined (name : Token)
  | output (cause : String)
deriving DecidableEq

namespace Fault

/-- The wording of a fault. -/
def message : Fault → String
  | operandNotNumber _ => "Operand must be a number."
  | operandsNotNumbers _ => "Operands must be numbers."
  | operandsNotNumbersOrStrings _ => "Operands must be numbers or strings."
  | undefinedVariable name => "Undefined variable '" ++ name.lexeme ++ "'."
  | alreadyDefined name =>
    "Variable '" ++ name.lexeme ++ "' is already defined in this scope."
  | output cause => "Failed to write output: " ++ cause

/-- The token to blame: an operator or a variable name. -/
def token? : Fault → Option Token
  | operandNotNumber operator => some operator
  | operandsNotNumbers operator => some operator
  | operandsNotNumbersOrStrings operator => some operator
  | undefinedVariable name => some name
  | alreadyDefined name => some name
  | output _ => none

/-- What is told to the user about a fault. -/
def diagnostic (f : Fault) : Diagnostic := .fault (f.token?.map (·.position)) f.message

end Fault

end Scriptlet
