/-!
Line bookkeeping by byte offsets.

A `LineMark` knows the current line and the byte offset at which it starts. It
is moved on by the stretches of text that are passed, in order, and then turns
byte offsets on its line into columns.

* `byteLength`: the length of text in bytes.
* `LineMark.advance`: passes a stretch of text that starts at a given offset.
* `LineMark.columnOf`: the column of a byte offset, counted in characters.
* `slice?`: the text between two byte offsets.
-/

namespace Scriptlet

/-- The length of text in bytes. -/
def byteLength : (text : List Char) → Nat
  | [] => 0
  | c :: text => c.utf8Size + byteLength text

/-- A line and the byte offset of its first character. -/
structure LineMark where
  line : Nat := 1
  start : Nat := 0
deriving DecidableEq, Repr

namespace LineMark

/-- Moves the mark behind every line feed of `text`, whose first character
stands at byte `offset`. -/
def advance (mark : LineMark) (offset : Nat) : (text : List Char) → LineMark
  | [] => mark
  | c :: text =>
    let next := offset + c.utf8Size
    if c = '\n' then advance ⟨mark.line + 1, next⟩ next text else advance mark next text

/-- How many characters the first `bytes` bytes of `text` hold; nothing if the
text is shorter or a character lies across that boundary. -/
def charsWithin? : (bytes : Nat) → (text : List Char) → Option Nat
  | 0, _ => some 0
  | _ + 1, [] => none
  | bytes + 1, c :: text =>
    if c.utf8Size ≤ bytes + 1 then
      (charsWithin? (bytes + 1 - c.utf8Size) text).map (· + 1)
    else none

/-- The text behind its first `bytes` bytes; nothing if the text is shorter or
a character lies across that boundary. -/
def dropBytes? : (bytes : Nat) → (text : List Char) → Option (List Char)
  | 0, text => some text
  | _ + 1, [] => none
  | bytes + 1, c :: text =>
    if c.utf8Size ≤ bytes + 1 then dropBytes? (bytes + 1 - c.utf8Size) text else none

/-- The column of the byte `offset` of `source` on the marked line. An offset
before the line, beyond the source or inside a character has column one. -/
def columnOf (mark : LineMark) (source : List Char) (offset : Nat) : Nat :=
  if mark.start ≤ offset then
    match dropBytes? mark.start source with
    | some rest => (charsWithin? (offset - mark.start) rest).getD 0 + 1
    | none => 1
  else 1

end LineMark

/-- The text between two byte offsets; nothing if the second is before the
first, beyond the text, or if one of them lies inside a character. -/
def slice? (start stop : Nat) (text : List Char) : Option (List Char) :=
  if start ≤ stop then
    (LineMark.dropBytes? start text).bind fun rest =>
      (LineMark.charsWithin? (stop - start) rest).map rest.take
  else none

end Scriptlet
