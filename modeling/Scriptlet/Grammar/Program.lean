import Scriptlet.Grammar.Statement

/-!
Programs from tokens.

Reading ends at the first end marker. Tokens without one are read as if it
stood right behind the last of them.

* `Parse.ofTokens`: the program that tokens write, and the complaints about them.
-/

namespace Scriptlet

/-- The end marker right behind the last of some tokens. -/
def Token.endBehind (tokens : List Token) : Token :=
  match tokens.getLast? with
  | some last =>
    .endOfInput ⟨last.position.line, last.position.column + last.lexeme.length⟩
  | none => .endOfInput .start

/-- A program and the complaints about the tokens it was read from. -/
structure Parse where
  program : List Statement
  complaints : List Complaint

namespace Parse

/-- Reads a program from tokens. -/
def ofTokens (tokens : List Token) : Parse :=
  let stop := (tokens.find? (·.isEnd)).getD (.endBehind tokens)
  let (program, complaints) := Grammar.declarations stop (tokens.takeWhile (!·.isEnd))
  ⟨program, complaints⟩

/-- What is told to the user about the tokens. -/
def report (p : Parse) : Report := p.complaints.map (·.diagnostic)

end Parse

end Scriptlet
