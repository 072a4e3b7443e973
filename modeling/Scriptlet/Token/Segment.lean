import Scriptlet.Token.Kind

/-!
The lexical rules: what a stretch of source text is.

A segment is the longest stretch that its rule matches. Comments do not nest,
and an open one runs to the end of the source; so does an open string, which
is an error.

* `Rule`, `Segment`: what a stretch of source is, and the stretch itself.
* `Segment.first`: the first segment of a source that is not empty, and the rest.
-/

namespace Scriptlet

/-- Why a stretch of source is no token. -/
inductive LexicalError where
  | unexpectedCharacter
  | unterminatedString
deriving DecidableEq, Repr

namespace LexicalError

/-- The error on its own. -/
def text : LexicalError → String
  | unexpectedCharacter => "Unexpected character."
  | unterminatedString => "Unterminated string."

/-- The error of a particular stretch of source: an unexpected character is
named, and is the null character if the stretch is empty. -/
def describe (e : LexicalError) (slice : List Char) : String :=
  match e with
  | unexpectedCharacter => "Unexpected character: " ++ String.singleton (slice.headD '\x00')
  | unterminatedString => e.text

end LexicalError

/-- What a stretch of source is. -/
inductive Rule where
  | blank
  | newline
  | lineComment
  | blockComment
  | token (kind : Token.Kind)
  | error (cause : LexicalError)
deriving DecidableEq, Repr

/-- The kind of token that a stretch of source becomes, if it becomes one. -/
def Rule.kind? : Rule → Option Token.Kind
  | .token kind => some kind
  | _ => none

/-- A stretch of source under one rule. -/
structure Segment where
  rule : Rule
  text : List Char
deriving DecidableEq, Repr

namespace Segment

/-! ### Character classes -/

/-- Characters between tokens that do not end a line. -/
def isBlank (c : Char) : Bool := c == ' ' || c == '\t' || c == '\r' || c == '\x0c'

/-- Characters that start a word. -/
def isWordStart (c : Char) : Bool := c.isAlpha || c == '_'

/-- Characters that continue a word. -/
def isWordPart (c : Char) : Bool := isWordStart c || c.isDigit

/-! ### The rules -/

/-- The number at the start of `source`: digits, and a point with further
digits only together. -/
def number (source : List Char) : List Char × List Char :=
  let whole := source.takeWhile Char.isDigit
  let rest := source.dropWhile Char.isDigit
  match rest with
  | '.' :: digit :: more =>
    if digit.isDigit then
      (whole ++ '.' :: (digit :: more).takeWhile Char.isDigit,
        (digit :: more).dropWhile Char.isDigit)
    else (whole, rest)
  | _ => (whole, rest)

/-- The kind of a word: a keyword if the whole word is one. -/
def wordKind (word : List Char) : Token.Kind :=
  match Keyword.ofChars? word with
  | some keyword => .keyword keyword
  | none => .identifier

/-- The string whose opening quote stands before `source`. It ends with the
next quote; without one the rest of the source is lost. -/
def string (source : List Char) : Segment × List Char :=
  let body := source.takeWhile (· != '"')
  match source.dropWhile (· != '"') with
  | quote :: rest => (⟨.token .string, '"' :: body ++ [quote]⟩, rest)
  | [] => (⟨.error .unterminatedString, '"' :: body⟩, [])

/-- The text up to and including the first `*/`, or all of it, and the rest. -/
def throughCommentEnd : List Char → List Char × List Char
  | [] => ([], [])
  | '*' :: '/' :: rest => (['*', '/'], rest)
  | c :: rest => (c :: (throughCommentEnd rest).1, (throughCommentEnd rest).2)

/-- The symbol of one character at the start of `c :: rest`; a character that
is none is unexpected. -/
def shortSymbol (c : Char) (rest : List Char) : Segment × List Char :=
  match Symbol.ofChars? [c] with
  | some s => (⟨.token (.symbol s), [c]⟩, rest)
  | none => (⟨.error .unexpectedCharacter, [c]⟩, rest)

/-- The longest symbol at the start of `c :: rest`. No symbol is longer than
two characters. -/
def symbol (c : Char) (rest : List Char) : Segment × List Char :=
  match rest with
  | [] => shortSymbol c []
  | d :: more =>
    match Symbol.ofChars? [c, d] with
    | some s => (⟨.token (.symbol s), [c, d]⟩, more)
    | none => shortSymbol c (d :: more)

/-- The comment or symbol at the start of `'/' :: rest`. -/
def slash (rest : List Char) : Segment × List Char :=
  match rest with
  | '/' :: more =>
    (⟨.lineComment, '/' :: '/' :: more.takeWhile (· != '\n')⟩, more.dropWhile (· != '\n'))
  | '*' :: more =>
    (⟨.blockComment, '/' :: '*' :: (throughCommentEnd more).1⟩, (throughCommentEnd more).2)
  | _ => symbol '/' rest

/-- The first segment of `c :: rest`, and what follows it. -/
def first (c : Char) (rest : List Char) : Segment × List Char :=
  if isBlank c then (⟨.blank, c :: rest.takeWhile isBlank⟩, rest.dropWhile isBlank)
  else if c = '\n' then (⟨.newline, [c]⟩, rest)
  else if c = '"' then string rest
  else if c = '/' then slash rest
  else if c.isDigit then (⟨.token .number, (number (c :: rest)).1⟩, (number (c :: rest)).2)
  else if isWordStart c then
    let word := c :: rest.takeWhile isWordPart
    (⟨.token (wordKind word), word⟩, rest.dropWhile isWordPart)
  else symbol c rest

end Segment

end Scriptlet
