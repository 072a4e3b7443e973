import Scriptlet.Grammar.Program
import Scriptlet.Proofs.Grammar.Rules

/-!
Reading tokens through a cursor.

The rules of the grammar hand on the tokens that are left. A reader keeps all tokens, with an
end marker as the last of them, and a place among them. It looks at the token in its place and
at the one before, and moves on token by token. Nothing in its rules says that reading comes
to an end, that the reader stays on the tokens, or that it heeds the first end marker. Rules
call each other up to a limit of calls inside calls, and a rule that goes beyond it, or looks
where there is no token, has no outcome. So a rule that ends is one with an outcome from some
limit on.

* `Reader`, `Reader.Rule`: readers, and what they do.
* `Reader.Ends`: a rule comes to its end.
* `Reader.peek`, `Reader.advance`, `Reader.consume`: looking and moving.
* `Reader.expression`, `Reader.declaration`, …: the rules of the grammar.
* `Reader.synchronize`: where reading goes on after a mistake.
* `Reader.ofTokens`: reads a program.
-/

namespace Scriptlet

/-! ### Readers -/

/-- A reader of tokens: its place, the complaints that it has noted, and the places where it
has stood or looked so far. -/
structure Reader where
  place : Nat := 0
  notes : List Complaint := []
  visited : List Nat := [0]

namespace Reader

/-- What a reader does. It gives a result or gets stuck, and the reader has moved. There is no
outcome if too many calls are inside each other, or if there is no token where the reader
looks. -/
abbrev Rule := ExceptT Complaint (StateT Reader Option)

/-- No outcome. -/
def never {α : Type} : Rule α := fun _ => none

/-- The reader that does what the rule says comes to an end, with this outcome and in this
state, whatever the limit is from some number on. -/
def Ends {α : Type} (rule : Nat → Rule α) (reader : Reader) (outcome : Except Complaint α)
    (after : Reader) : Prop :=
  ∃ enough, ∀ limit, enough ≤ limit → rule limit reader = some (outcome, after)

section Rules

variable (tokens : List Token)

/-- The token in a place. -/
def look (index : Nat) : Rule Token := do
  modify fun reader => { reader with visited := reader.visited ++ [index] }
  liftM tokens[index]?

/-- The token in the place of the reader, or the last one if the reader is behind it. -/
def peek : Rule Token := do look tokens (min (← get).place (tokens.length - 1))

/-- The token before the place of the reader. -/
def previous : Rule Token := do look tokens ((← get).place - 1)

/-- The reader has come to an end marker. -/
def isAtEnd : Rule Bool := return (← peek tokens).isEnd

/-- The next token is of the given kind. -/
def check (kind : Token.Kind) : Rule Bool := do
  if ← isAtEnd tokens then return false
  else return (← peek tokens).kind = kind

/-- The reader moves on by one place. -/
def move : Rule Unit := modify fun reader =>
  { reader with place := reader.place + 1, visited := reader.visited ++ [reader.place + 1] }

/-- Moves over the next token, unless it is an end marker. -/
def advance : Rule Token := do
  if ← isAtEnd tokens then previous tokens
  else
    move
    previous tokens

/-- Moves over the next token if it is of the given kind. -/
def accept (kind : Token.Kind) : Rule (Option Token) := do
  if ← check tokens kind then return some (← advance tokens)
  else return none

/-- Moves over the next token, which has to be of the given kind. -/
def consume (kind : Token.Kind) (missing : Expectation) : Rule Token := do
  if ← check tokens kind then advance tokens
  else throw ⟨← peek tokens, missing⟩

/-- Notes a complaint. -/
def report (complaint : Complaint) : Rule Unit :=
  modify fun reader => { reader with notes := reader.notes ++ [complaint] }

mutual

/-- An assignment, or a phrase of binary operators. -/
def expression : Nat → Rule Expr
  | 0 => never
  | limit + 1 => do
    let target ← binary .equality limit
    match ← accept tokens (.symbol .equal) with
    | none => return target
    | some equals =>
      let value ← expression limit
      match target with
      | .read name => return .assign name value
      | other =>
        report ⟨equals, .assignmentTarget⟩
        return other

/-- Operands of a level with operators of that level between them. -/
def binary (level : Precedence) : Nat → Rule Expr
  | 0 => never
  | limit + 1 => do
    let left ← operand level limit
    chain level left limit

/-- The operators of a level that follow `left`, each with an operand. -/
def chain (level : Precedence) (left : Expr) : Nat → Rule Expr
  | 0 => never
  | limit + 1 => do
    let operator ← peek tokens
    match BinaryOp.ofKindAt? level operator.kind with
    | none => return left
    | some op =>
      let _ ← advance tokens
      let right ← operand level limit
      chain level (.binary op operator left right) limit

/-- What stands between operators of a level. -/
def operand (level : Precedence) : Nat → Rule Expr
  | 0 => never
  | limit + 1 =>
    match level.tighter? with
    | some tighter => binary tighter limit
    | none => unary limit

/-- Operators before an operand, or a phrase without operators. -/
def unary : Nat → Rule Expr
  | 0 => never
  | limit + 1 => do
    let operator ← peek tokens
    match UnaryOp.ofKind? operator.kind with
    | some op =>
      let _ ← advance tokens
      let operand ← unary limit
      return .unary op operator operand
    | none => primary limit

/-- A literal, a variable, or an expression in parentheses. -/
def primary : Nat → Rule Expr
  | 0 => never
  | limit + 1 => do
    let token ← peek tokens
    match Grammar.atom? token with
    | some phrase =>
      let _ ← advance tokens
      return phrase
    | none =>
      if token.kind = .symbol .leftParen then
        let _ ← advance tokens
        let inner ← expression limit
        let _ ← consume tokens (.symbol .rightParen) .closingParen
        return .grouping inner
      else throw ⟨token, .expression⟩

end

/-- The declaration of a variable, from behind its name up to the semicolon. -/
def initializer (name : Token) (limit : Nat) : Rule Statement := do
  match ← accept tokens (.symbol .equal) with
  | some _ =>
    let initial ← expression tokens limit
    return .declare name (some initial)
  | none => return .declare name none

/-- A declaration behind `var`. -/
def variableDeclaration (limit : Nat) : Rule Statement := do
  let name ← consume tokens .identifier .variableName
  let declared ← initializer tokens name limit
  let _ ← consume tokens (.symbol .semicolon) .semicolonAfterDeclaration
  return declared

/-- Moves on up to the next place that follows a semicolon or opens a statement. -/
def skip : Nat → Rule Unit
  | 0 => never
  | limit + 1 => do
    if ← isAtEnd tokens then return ()
    else if (← previous tokens).isSymbol .semicolon || (← peek tokens).kind.startsStatement then
      return ()
    else
      let _ ← advance tokens
      skip limit

/-- Moves to where reading goes on after a mistake. -/
def synchronize (limit : Nat) : Rule Unit := do
  let _ ← advance tokens
  skip tokens limit

mutual

/-- A declaration, or what is left after recovery from it. -/
def declaration : Nat → Rule (Option Statement)
  | 0 => never
  | limit + 1 =>
    tryCatch (do return some (← statement limit)) fun cause => do
      report cause
      synchronize tokens limit
      return none

/-- A declaration or statement. -/
def statement : Nat → Rule Statement
  | 0 => never
  | limit + 1 => do
    match ← accept tokens (.keyword .var) with
    | some _ => variableDeclaration tokens limit
    | none =>
      match ← accept tokens (.keyword .print) with
      | some _ =>
        let value ← expression tokens limit
        let _ ← consume tokens (.symbol .semicolon) .semicolonAfterValue
        return .print value
      | none =>
        match ← accept tokens (.symbol .leftBrace) with
        | some _ =>
          let body ← block limit
          return .block body
        | none =>
          let value ← expression tokens limit
          let _ ← consume tokens (.symbol .semicolon) .semicolonAfterExpression
          return .expression value

/-- The declarations of a block and its closing brace. -/
def block : Nat → Rule (List Statement)
  | 0 => never
  | limit + 1 => do
    if (← check tokens (.symbol .rightBrace)) || (← isAtEnd tokens) then
      let _ ← consume tokens (.symbol .rightBrace) .closingBrace
      return []
    else
      let first ← declaration limit
      let later ← block limit
      return first.toList ++ later

end

/-- All declarations up to an end marker. -/
def program : Nat → Rule (List Statement)
  | 0 => never
  | limit + 1 => do
    if ← isAtEnd tokens then return []
    else
      let first ← declaration tokens limit
      let later ← program limit
      return first.toList ++ later

end Rules

/-- The tokens with an end marker as the last of them. -/
def terminated (tokens : List Token) : List Token :=
  if tokens.getLast?.any (·.isEnd) then tokens else tokens ++ [.endBehind tokens]

/-- Reads a program from tokens. -/
def ofTokens (tokens : List Token) : Nat → Rule (List Statement) := program (terminated tokens)

end Reader

end Scriptlet
