import Scriptlet.Number.Text
import Scriptlet.Source.Position
import Scriptlet.Token.Kind

/-!
Tokens: a kind, the source text, perhaps a literal, and a position.

* `Literal`: what a number or a string in the source denotes.
* `Token`, `Token.endOfInput`: tokens, and the marker behind the last of them.
* `Token.text`: the description of a token.
-/

namespace Scriptlet

/-- What a token of source text denotes by itself. -/
inductive Literal where
  | number (value : Float)
  | string (text : String)
deriving DecidableEq

/-- A lexical unit and the position of its first character. -/
structure Token where
  kind : Token.Kind
  lexeme : String
  literal : Option Literal
  position : Position
deriving DecidableEq

namespace Token

/-- The marker behind the last token. -/
def endOfInput (position : Position) : Token := ⟨.endOfInput, "", none, position⟩

/-- The token is an end marker. -/
def isEnd (t : Token) : Bool := t.kind == .endOfInput

/-- The token is the given symbol. -/
def isSymbol (t : Token) (s : Symbol) : Bool := t.kind == .symbol s

/-- Numbers in descriptions of tokens. -/
def numberFormat : NumberFormat := ⟨"NaN", "inf"⟩

/-- The description of a literal. -/
def literalText : Literal → String
  | .number value => numberFormat.text value
  | .string text => text

/-- The description of a token: its kind, its lexeme and its literal. -/
def text (t : Token) : String :=
  let described := t.kind.name ++ " " ++ t.lexeme
  match t.literal with
  | some literal => described ++ " " ++ literalText literal
  | none => described

end Token

end Scriptlet
