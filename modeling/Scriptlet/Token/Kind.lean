/-!
The kinds of tokens.

* `Symbol`: operators and punctuation, with `Symbol.chars` as their spelling.
* `Keyword`: reserved words, with `Keyword.chars` as their spelling.
* `Token.Kind`: the kind of a token, and `Token.Kind.name` for it.
* `Symbol.ofChars?`, `Keyword.ofChars?`: from a spelling back to what it spells.
-/

namespace Scriptlet

/-- Operators and punctuation. -/
inductive Symbol where
  | leftParen | rightParen | leftBrace | rightBrace
  | comma | semicolon | slash | star | colon
  | dot | dotDot
  | minus | minusMinus
  | plus | plusPlus
  | bang | bangEqual
  | equal | equalEqual
  | greater | greaterEqual
  | less | lessEqual
  | question | questionQuestion | questionDot
deriving DecidableEq, Repr

namespace Symbol

/-- Every symbol once. -/
def all : List Symbol :=
  [leftParen, rightParen, leftBrace, rightBrace, comma, semicolon, slash, star, colon,
    dot, dotDot, minus, minusMinus, plus, plusPlus, bang, bangEqual, equal, equalEqual,
    greater, greaterEqual, less, lessEqual, question, questionQuestion, questionDot]

/-- The spelling of a symbol. -/
def chars : Symbol → List Char
  | leftParen => ['('] | rightParen => [')'] | leftBrace => ['{'] | rightBrace => ['}']
  | comma => [','] | semicolon => [';'] | slash => ['/'] | star => ['*'] | colon => [':']
  | dot => ['.'] | dotDot => ['.', '.']
  | minus => ['-'] | minusMinus => ['-', '-']
  | plus => ['+'] | plusPlus => ['+', '+']
  | bang => ['!'] | bangEqual => ['!', '=']
  | equal => ['='] | equalEqual => ['=', '=']
  | greater => ['>'] | greaterEqual => ['>', '=']
  | less => ['<'] | lessEqual => ['<', '=']
  | question => ['?'] | questionQuestion => ['?', '?'] | questionDot => ['?', '.']

/-- The name of a symbol in descriptions of tokens. -/
def name : Symbol → String
  | leftParen => "LeftParen" | rightParen => "RightParen"
  | leftBrace => "LeftBrace" | rightBrace => "RightBrace"
  | comma => "Comma" | semicolon => "Semicolon" | slash => "Slash" | star => "Star"
  | colon => "Colon"
  | dot => "Dot" | dotDot => "DotDot"
  | minus => "Minus" | minusMinus => "MinusMinus"
  | plus => "Plus" | plusPlus => "PlusPlus"
  | bang => "Bang" | bangEqual => "BangEqual"
  | equal => "Equal" | equalEqual => "EqualEqual"
  | greater => "Greater" | greaterEqual => "GreaterEqual"
  | less => "Less" | lessEqual => "LessEqual"
  | question => "Question" | questionQuestion => "QuestionQuestion"
  | questionDot => "QuestionDot"

/-- The symbol spelled by exactly these characters. -/
def ofChars? (text : List Char) : Option Symbol := all.find? (·.chars == text)

end Symbol

/-- Reserved words. -/
inductive Keyword where
  | and | «break» | «class» | «continue» | «do» | «else» | false | «for» | «fun» | «if»
  | nil | or | print | «return» | super | this | true | var | «while»
deriving DecidableEq, Repr

namespace Keyword

/-- Every keyword once. -/
def all : List Keyword :=
  [.and, .«break», .«class», .«continue», .«do», .«else», .false, .«for», .«fun», .«if»,
    .nil, .or, .print, .«return», .super, .this, .true, .var, .«while»]

/-- The word itself. -/
def word : Keyword → String
  | .and => "and" | .«break» => "break" | .«class» => "class" | .«continue» => "continue"
  | .«do» => "do" | .«else» => "else" | .false => "false" | .«for» => "for" | .«fun» => "fun"
  | .«if» => "if" | .nil => "nil" | .or => "or" | .print => "print" | .«return» => "return"
  | .super => "super" | .this => "this" | .true => "true" | .var => "var"
  | .«while» => "while"

/-- The spelling of a keyword. -/
def chars (k : Keyword) : List Char := k.word.toList

/-- The name of a keyword in descriptions of tokens: its word with a capital. -/
def name (k : Keyword) : String := k.word.capitalize

/-- The keyword spelled by exactly these characters. -/
def ofChars? (text : List Char) : Option Keyword := all.find? (·.chars == text)

/-- The word opens a declaration or a statement. Recovery from a malformed
declaration goes on before such a word. -/
def startsStatement : Keyword → Bool
  | .«class» | .«fun» | .var | .«for» | .«if» | .«while» | .print | .«return» => Bool.true
  | _ => Bool.false

end Keyword

/-- The kind of a token. -/
inductive Token.Kind where
  | symbol (symbol : Symbol)
  | keyword (keyword : Keyword)
  | identifier
  | string
  | number
  | endOfInput
deriving DecidableEq, Repr

namespace Token.Kind

/-- Every kind once. -/
def all : List Kind :=
  Symbol.all.map .symbol ++ Keyword.all.map .keyword ++
    [.identifier, .string, .number, .endOfInput]

/-- The name of a kind in descriptions of tokens. -/
def name : Kind → String
  | .symbol s => s.name
  | .keyword k => k.name
  | .identifier => "Identifier"
  | .string => "String"
  | .number => "Number"
  | .endOfInput => "Eof"

/-- A token of this kind opens a declaration or a statement. -/
def startsStatement : Kind → Bool
  | .keyword k => k.startsStatement
  | _ => false

end Token.Kind

end Scriptlet
