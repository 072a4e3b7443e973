import Scriptlet.Proofs.Token.FirstSegment
import Scriptlet.Proofs.Token.Moved

/-!
Where segments end.

A delimiter is a character that continues no symbol, no number and no word, such as a
space or a line feed. When it is put behind a text, with anything else behind it, then the
first segment of the text stays as it is, unless its rule runs on over the delimiter: blanks
do so over a blank, line comments over all but a line feed, and strings and comments as long
as they lack their end.

* `Segment.IsOpenString`, `Segment.IsOpenComment`: segments that run to the end of the
  source because they lack their own.
* `Segment.Delimiter`: characters that continue no token.
* `Segment.RunsOver`: segments whose rule runs on over a character.
* `Segment.first_before`: the first segment of a text with a delimiter behind it.
-/

namespace Scriptlet.Segment

open Lexical

/-! ### Segments without an end -/

/-- A string without a closing quote. -/
def IsOpenString (segment : Segment) : Prop := segment.rule = .error .unterminatedString

/-- A comment without a closing `*/` behind the opening `/*`. -/
def IsOpenComment (segment : Segment) : Prop :=
  segment.rule = .blockComment ∧ ¬ ['*', '/'] <:+: segment.text.drop 2

instance (segment : Segment) : Decidable segment.IsOpenString :=
  inferInstanceAs (Decidable (_ = _))

instance (segment : Segment) : Decidable segment.IsOpenComment :=
  inferInstanceAs (Decidable (_ ∧ _))

/-! ### Delimiters -/

/-- A character that continues no symbol, no number and no word, and opens no comment
behind a slash. -/
structure Delimiter (d : Char) : Prop where
  not_isWordPart : isWordPart d = false
  ne_point : d ≠ '.'
  ne_slash : d ≠ '/'
  ne_star : d ≠ '*'
  not_symbol : ∀ c, Symbol.ofChars? [c, d] = none

variable {d : Char}

lemma Delimiter.not_isDigit (hd : Delimiter d) : d.isDigit = false :=
  (Bool.or_eq_false_iff.1 hd.not_isWordPart).2

/-- A character that occurs in no symbol ends every symbol. -/
lemma ofChars?_eq_none_of_notMem (h : ∀ s : Symbol, d ∉ s.chars) (c : Char) :
    Symbol.ofChars? [c, d] = none := by
  cases hs : Symbol.ofChars? [c, d] with
  | none => rfl
  | some s =>
      refine absurd ?_ (h s)
      rw [chars_of_symbol_ofChars? hs]
      simp

lemma delimiter_newline : Delimiter '\n' where
  not_isWordPart := by decide
  ne_point := by decide
  ne_slash := by decide
  ne_star := by decide
  not_symbol := ofChars?_eq_none_of_notMem fun s => by cases s <;> decide

lemma delimiter_space : Delimiter ' ' where
  not_isWordPart := by decide
  ne_point := by decide
  ne_slash := by decide
  ne_star := by decide
  not_symbol := ofChars?_eq_none_of_notMem fun s => by cases s <;> decide

lemma delimiter_semicolon : Delimiter ';' where
  not_isWordPart := by decide
  ne_point := by decide
  ne_slash := by decide
  ne_star := by decide
  not_symbol := by
    -- a semicolon is a symbol, but the second character of none
    intro c
    cases hs : Symbol.ofChars? [c, ';'] with
    | none => rfl
    | some s =>
        have hchars := chars_of_symbol_ofChars? hs
        cases s <;> simp [Symbol.chars] at hchars

/-- The rule of the segment runs on over the character when it stands behind the segment. -/
def RunsOver (d : Char) (segment : Segment) : Prop :=
  match segment.rule with
  | .blank => isBlank d = true
  | .lineComment => d ≠ '\n'
  | .blockComment => segment.IsOpenComment
  | .error .unterminatedString => True
  | _ => False

/-! ### The first segment before a delimiter -/

/-- No symbol goes over a delimiter. -/
lemma symbol_before (hd : Delimiter d) (c : Char) (rest more : List Char) :
    symbol c (rest ++ d :: more) = ((symbol c rest).1, (symbol c rest).2 ++ d :: more) := by
  have hshort : ∀ rest : List Char, shortSymbol c (rest ++ d :: more) =
      ((shortSymbol c rest).1, (shortSymbol c rest).2 ++ d :: more) := by
    intro rest
    rw [shortSymbol, shortSymbol]
    split <;> rfl
  cases rest with
  | nil =>
      have halone : symbol c (d :: more) = shortSymbol c (d :: more) := by
        rw [symbol.eq_def]
        simp only [hd.not_symbol c]
      exact halone.trans (hshort [])
  | cons e rest =>
      rw [List.cons_append, symbol, symbol]
      split
      · rfl
      · exact hshort (e :: rest)

/-- No number goes over a delimiter. -/
lemma number_before (hd : Delimiter d) (source more : List Char) :
    number (source ++ d :: more) = ((number source).1, (number source).2 ++ d :: more) := by
  rw [number, number, takeWhile_append_cons hd.not_isDigit, dropWhile_append_cons hd.not_isDigit]
  generalize source.takeWhile Char.isDigit = whole
  generalize source.dropWhile Char.isDigit = tail
  rcases tail with _ | ⟨c, _ | ⟨digit, tail⟩⟩
  · simp [hd.ne_point]
  · by_cases hc : c = '.'
    · simp [hc, hd.not_isDigit]
    · simp [hc]
  · by_cases hc : c = '.'
    · have hfraction := takeWhile_append_cons hd.not_isDigit (digit :: tail) more
      have hrest := dropWhile_append_cons hd.not_isDigit (digit :: tail) more
      rw [List.cons_append] at hfraction hrest
      simp only [hc, List.cons_append, hfraction, hrest]
      split <;> rfl
    · simp [hc]

lemma string_of_closed {body : List Char} (h : '"' ∉ body) (rest : List Char) :
    string (body ++ '"' :: rest) = (⟨.token .string, '"' :: body ++ ['"']⟩, rest) := by
  have hall := bne_of_notMem h
  rw [string, List.takeWhile_append_of_pos hall, List.dropWhile_append_of_pos hall]
  simp

/-- A string with a closing quote ends there. -/
lemma string_before {rest : List Char} (h : ¬ (string rest).1.RunsOver d) (more : List Char) :
    string (rest ++ d :: more) = ((string rest).1, (string rest).2 ++ d :: more) := by
  by_cases hquote : '"' ∈ rest
  · obtain ⟨body, behind, rfl, hbody⟩ := List.eq_append_cons_of_mem hquote
    rw [List.append_assoc, List.cons_append, string_of_closed hbody, string_of_closed hbody]
  · have hopen : rest.dropWhile (· != '"') = [] :=
      List.dropWhile_eq_nil_iff.2 (bne_of_notMem hquote)
    refine absurd ?_ h
    rw [string, hopen]
    trivial

/-- A comment over several lines ends with its `*/`, and a line comment before a line
feed. -/
lemma slash_before (hd : Delimiter d) {rest : List Char} (h : ¬ (slash rest).1.RunsOver d)
    (more : List Char) :
    slash (rest ++ d :: more) = ((slash rest).1, (slash rest).2 ++ d :: more) := by
  have hsymbol : ∀ c rest, c ≠ '/' → c ≠ '*' → slash (c :: rest) = symbol '/' (c :: rest) := by
    intro c rest hline hblock
    rw [slash]
    · simpa using hline
    · simpa using hblock
  cases rest with
  | nil =>
      rw [List.nil_append, hsymbol d more hd.ne_slash hd.ne_star]
      exact symbol_before hd '/' [] more
  | cons c rest =>
      by_cases hline : c = '/'
      · subst hline
        obtain rfl : d = '\n' := by simpa [slash, RunsOver] using h
        rw [List.cons_append, slash, slash, takeWhile_append_cons (by decide),
          dropWhile_append_cons (by decide)]
      by_cases hblock : c = '*'
      · subst hblock
        rw [List.cons_append, slash, slash]
        rcases closed_or_open rest with ⟨body, behind, rfl, hbody⟩ | hopen
        · rw [List.append_assoc, List.cons_append, List.cons_append,
            throughCommentEnd_of_closed _ hbody, throughCommentEnd_of_closed _ hbody]
        · refine absurd ⟨rfl, ?_⟩ h
          rw [slash, throughCommentEnd_of_open hopen]
          exact hopen
      · rw [List.cons_append, hsymbol c _ hline hblock, hsymbol c _ hline hblock,
          ← List.cons_append]
        exact symbol_before hd '/' (c :: rest) more

/-- **The first segment ends before a delimiter**, whatever follows, unless its rule runs on
over the delimiter. -/
theorem first_before (hd : Delimiter d) {c : Char} {rest : List Char}
    (h : ¬ (first c rest).1.RunsOver d) (more : List Char) :
    first c (rest ++ d :: more) = ((first c rest).1, (first c rest).2 ++ d :: more) := by
  by_cases hblank : isBlank c = true
  · have hd' : isBlank d = false := by
      rw [first, if_pos hblank] at h
      simpa [RunsOver] using h
    rw [first, first, if_pos hblank, if_pos hblank, takeWhile_append_cons hd',
      dropWhile_append_cons hd']
  by_cases hline : c = '\n'
  · rw [hline]
    rfl
  by_cases hquote : c = '"'
  · subst hquote
    exact string_before h more
  by_cases hslash : c = '/'
  · subst hslash
    exact slash_before hd h more
  by_cases hdigit : c.isDigit = true
  · rw [first_of_isDigit _ hdigit, first_of_isDigit _ hdigit, ← List.cons_append,
      number_before hd]
  by_cases hword : isWordStart c = true
  · rw [first_of_isWordStart _ hword, first_of_isWordStart _ hword,
      takeWhile_append_cons hd.not_isWordPart, dropWhile_append_cons hd.not_isWordPart]
  · have hsymbol : ∀ rest, first c rest = symbol c rest := by
      intro rest
      rw [first, if_neg hblank, if_neg hline, if_neg hquote, if_neg hslash, if_neg hdigit,
        if_neg hword]
    rw [hsymbol, hsymbol]
    exact symbol_before hd c rest more

end Scriptlet.Segment
