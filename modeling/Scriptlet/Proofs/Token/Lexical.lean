import Mathlib.Tactic.Lemma
import Scriptlet.Token.Scan

/-!
The lexical rules as a relation between rules and text.

    blank        := [ \t\r\f]+
    newline      := "\n"
    line comment := "//" up to the next line feed or the end
    comment      := "/*" through the first later "*/" or to the end
    operator     := the spelling of a symbol
    number       := [0-9]+ ( "." [0-9]+ )?
    word         := [A-Za-z_][A-Za-z0-9_]*
    string       := "\"" through the next "\"", or to the end, which is an error

A rule matches a text that stands before a rest. The rest matters only to the
rules that run up to a delimiter. Characters are compared with the ones that
are written here and not with the classes that the scanner uses.

* `Lexical.Shape`: the text of every rule but the last.
* `Lexical.Matches`: the rules with the last one, a character that starts none.
* `Lexical.Longest`: no rule matches more of the same source.
* `Lexical.IsCut`: a source as a row of longest matches, without gaps.
-/

namespace Scriptlet.Lexical

/-! ### Characters and runs of them -/

/-- Characters between tokens that do not end a line. -/
def Blank (c : Char) : Prop := c = ' ' ∨ c = '\t' ∨ c = '\r' ∨ c = '\x0c'

/-- The digits of numbers. -/
def Digit (c : Char) : Prop := '0' ≤ c ∧ c ≤ '9'

/-- The characters that start a word. -/
def Letter (c : Char) : Prop := ('A' ≤ c ∧ c ≤ 'Z') ∨ ('a' ≤ c ∧ c ≤ 'z') ∨ c = '_'

/-- One or more characters of a class. -/
def Run (p : Char → Prop) (text : List Char) : Prop := text ≠ [] ∧ ∀ c ∈ text, p c

/-- A letter, and letters and digits behind it. -/
def Word (text : List Char) : Prop :=
  ∃ c more, text = c :: more ∧ Letter c ∧ ∀ d ∈ more, Letter d ∨ Digit d

/-! ### The rules -/

/-- The rule matches the text, which stands before a rest. -/
inductive Shape : Rule → List Char → List Char → Prop where
  | blank {text rest : List Char} (h : Run Blank text) : Shape .blank text rest
  | newline {rest : List Char} : Shape .newline ['\n'] rest
  /-- The line feed behind a line comment is no part of it. -/
  | lineComment {body rest : List Char} (h : '\n' ∉ body)
      (h' : rest = [] ∨ ∃ more, rest = '\n' :: more) :
      Shape .lineComment ('/' :: '/' :: body) rest
  /-- The closing `*/` is the first one behind the opening `/*`. -/
  | blockComment {body rest : List Char} (h : ¬ ['*', '/'] <:+: body ++ ['*']) :
      Shape .blockComment ('/' :: '*' :: body ++ ['*', '/']) rest
  | openComment {body : List Char} (h : ¬ ['*', '/'] <:+: body) :
      Shape .blockComment ('/' :: '*' :: body) []
  | symbol {s : Symbol} {rest : List Char} : Shape (.token (.symbol s)) s.chars rest
  | whole {digits rest : List Char} (h : Run Digit digits) : Shape (.token .number) digits rest
  | decimal {digits fraction rest : List Char} (h : Run Digit digits)
      (h' : Run Digit fraction) : Shape (.token .number) (digits ++ '.' :: fraction) rest
  | keyword {k : Keyword} {rest : List Char} : Shape (.token (.keyword k)) k.chars rest
  /-- A word that is no keyword as a whole. -/
  | identifier {word rest : List Char} (h : Word word) (h' : ∀ k : Keyword, k.chars ≠ word) :
      Shape (.token .identifier) word rest
  | string {body rest : List Char} (h : '"' ∉ body) :
      Shape (.token .string) ('"' :: body ++ ['"']) rest
  | openString {body : List Char} (h : '"' ∉ body) :
      Shape (.error .unterminatedString) ('"' :: body) []

/-- Some text of some rule starts with the character. -/
def Starts (c : Char) : Prop := ∃ rule text rest, Shape rule (c :: text) rest

/-- The rule, perhaps the one for a character that starts no other rule, matches
the text. -/
inductive Matches : Rule → List Char → List Char → Prop where
  | shape {rule : Rule} {text rest : List Char} (h : Shape rule text rest) :
      Matches rule text rest
  | unexpected {c : Char} {rest : List Char} (h : ¬ Starts c) :
      Matches (.error .unexpectedCharacter) [c] rest

/-- The segment is a match, and no rule matches a longer text at its start. -/
structure Longest (segment : Segment) (rest : List Char) : Prop where
  isMatch : Matches segment.rule segment.text rest
  length_le : ∀ {rule : Rule} {text rest' : List Char}, Matches rule text rest' →
    text ++ rest' = segment.text ++ rest → text.length ≤ segment.text.length

/-- The source is the texts of the segments, and each segment is a longest match
at the place where it stands. -/
inductive IsCut : List Char → List Segment → Prop where
  | nil : IsCut [] []
  | cons {segment : Segment} {rest : List Char} {segments : List Segment}
      (h : Longest segment rest) (h' : IsCut rest segments) :
      IsCut (segment.text ++ rest) (segment :: segments)

/-! ### The classes of the scanner -/

lemma isBlank_iff {c : Char} : Segment.isBlank c = true ↔ Blank c := by
  simp [Segment.isBlank, Blank, or_assoc]

lemma isDigit_iff {c : Char} : c.isDigit = true ↔ Digit c := by
  simp [Char.isDigit, Digit, Char.le_def]

lemma isWordStart_iff {c : Char} : Segment.isWordStart c = true ↔ Letter c := by
  have hupper : c.isUpper = true ↔ 'A' ≤ c ∧ c ≤ 'Z' := decide_eq_true_iff
  have hlower : c.isLower = true ↔ 'a' ≤ c ∧ c ≤ 'z' :=
    Bool.and_eq_true_iff.trans (and_congr decide_eq_true_iff decide_eq_true_iff)
  have halpha : c.isAlpha = true ↔ c.isUpper = true ∨ c.isLower = true := Bool.or_eq_true_iff
  rw [Segment.isWordStart, Bool.or_eq_true, halpha, hupper, hlower, beq_iff_eq, or_assoc, Letter]

lemma isWordPart_iff {c : Char} : Segment.isWordPart c = true ↔ Letter c ∨ Digit c := by
  rw [Segment.isWordPart, Bool.or_eq_true, isWordStart_iff, isDigit_iff]

/-! ### Spellings -/

lemma symbol_ofChars?_chars (s : Symbol) : Symbol.ofChars? s.chars = some s := by
  cases s <;> decide

lemma keyword_ofChars?_chars (k : Keyword) : Keyword.ofChars? k.chars = some k := by
  cases k <;> decide

lemma chars_of_symbol_ofChars? {text : List Char} {s : Symbol}
    (h : Symbol.ofChars? text = some s) : s.chars = text := by
  simpa using List.find?_some h

lemma chars_of_keyword_ofChars? {text : List Char} {k : Keyword}
    (h : Keyword.ofChars? text = some k) : k.chars = text := by
  simpa using List.find?_some h

end Scriptlet.Lexical
