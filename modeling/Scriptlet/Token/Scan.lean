import Scriptlet.Diagnostic
import Scriptlet.Source.LineMark
import Scriptlet.Token.Cut

/-!
Tokens of a source text.

The segments of the source are walked from left to right. Those that are
tokens are kept with the position of their first character, those that are
errors are reported, and the others only move the cursor on. An end marker
stands behind the last token.

* `Cursor`: the byte offset that a walk has reached and the mark of its line.
* `Cursor.pass`: the cursor behind a segment.
* `Scan`: tokens and the report about the text between them.
* `Scan.ofSegments`: the tokens of segments that start at a cursor.
* `scan`: the tokens of a source.
-/

namespace Scriptlet

/-- What a number or string token of the given text denotes: the float of a numeral, and
what stands between the first and the last byte of a string. A text that is not of this
form denotes nothing. -/
def Literal.ofText? (kind : Token.Kind) (text : List Char) : Option Literal :=
  match kind with
  | .number => (Decimal.read? text).map fun decimal => .number decimal.toFloat
  | .string => (slice? 1 (byteLength text - 1) text).map fun body => .string (String.ofList body)
  | _ => none

/-- The token of the given kind and text at a position. -/
def Token.ofText (kind : Token.Kind) (text : List Char) (position : Position) : Token :=
  ⟨kind, String.ofList text, Literal.ofText? kind text, position⟩

/-- Where a walk over a source stands: the byte offset of the next character, and
the bookkeeping of the line. -/
structure Cursor where
  offset : Nat := 0
  mark : LineMark := {}
deriving DecidableEq, Repr

namespace Cursor

/-- The position of the next character. -/
def position (cursor : Cursor) (source : List Char) : Position :=
  ⟨cursor.mark.line, cursor.mark.columnOf source cursor.offset⟩

/-- The cursor behind a segment. A newline starts the next line; comments over
several lines, tokens and errors are searched for line feeds; blanks and line
comments are known to hold none. -/
def pass (cursor : Cursor) (segment : Segment) : Cursor :=
  let next := cursor.offset + byteLength segment.text
  match segment.rule with
  | .blank | .lineComment => ⟨next, cursor.mark⟩
  | .newline => ⟨next, ⟨cursor.mark.line + 1, next⟩⟩
  | .blockComment | .token _ | .error _ =>
    ⟨next, cursor.mark.advance cursor.offset segment.text⟩

end Cursor

/-- The tokens of a source and the report about it. -/
structure Scan where
  tokens : List Token
  report : Report

namespace Scan

/-- Puts what a segment at a position contributes in front of what follows it. -/
def prepend (segment : Segment) (position : Position) (later : Scan) : Scan :=
  match segment.rule with
  | .token kind => ⟨.ofText kind segment.text position :: later.tokens, later.report⟩
  | .error cause =>
    ⟨later.tokens, .atPosition position (cause.describe segment.text) :: later.report⟩
  | _ => later

/-- The tokens of segments of a source, the first of which starts at a cursor. -/
def ofSegments (source : List Char) (cursor : Cursor) : List Segment → Scan
  | [] => ⟨[.endOfInput (cursor.position source)], []⟩
  | segment :: segments =>
    prepend segment (cursor.position source) (ofSegments source (cursor.pass segment) segments)

end Scan

/-- The tokens of a source, with an end marker, and the report about it. -/
def scan (source : String) : Scan :=
  .ofSegments source.toList {} (Segment.cut source.toList)

end Scriptlet
