import Scriptlet.Grammar.Program
import Scriptlet.Token.Scan

/-!
Programs from source text.

* `read`: the program that a source writes, and the report about the source. What
  is no token is reported before what does not fit the grammar.
-/

namespace Scriptlet

/-- A program and the report about its source. -/
structure Reading where
  program : List Statement
  report : Report

/-- Reads a program from source text. -/
def read (source : String) : Reading :=
  let scanned := scan source
  let parsed := Parse.ofTokens scanned.tokens
  ⟨parsed.program, scanned.report ++ parsed.report⟩

end Scriptlet
