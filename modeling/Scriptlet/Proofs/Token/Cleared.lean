import Mathlib.Data.List.Forall2
import Mathlib.Data.List.Infix
import Scriptlet.Proofs.Token.Seam

/-!
An unexpected character acts like a space.

A character that starts no lexical rule ends the token before it and is no part of the
token behind it, and so does a space. It covers one column, and so does a space, however
many bytes it has. So a source may be cleared of its unexpected characters, with a space
in the place of each: only the complaints about them are gone.

* `Lexical.ClearedTo`: text with spaces in place of some characters that start no rule.
* `Lexical.Shape.of_cleared`: where a rule matches a cleared text, it matches the text.
* `Segment.cut_before_cleared`: so a segment ends where it is, also if the source behind
  it is cleared.
* `Scan.counted_cleared`: the scan of a cleared source, from any place on.
* `cleared`: a source with spaces in place of the characters that are reported as
  unexpected; `toList_cleared` ties it to the segments.
* `scan_cleared`: the scan of the cleared source.
-/

namespace Scriptlet

namespace Lexical

/-! ### Cleared text -/

/-- The second text is the first one with spaces in place of some characters that start no
rule. -/
def ClearedTo : (text cleared : List Char) → Prop :=
  List.Forall₂ fun c d => c = d ∨ ¬ Starts c ∧ d = ' '

namespace ClearedTo

variable {text cleared : List Char}

lemma refl (text : List Char) : ClearedTo text text :=
  List.forall₂_same.2 fun _ _ => .inl rfl

lemma append {more cleared' : List Char} (h : ClearedTo text cleared)
    (h' : ClearedTo more cleared') : ClearedTo (text ++ more) (cleared ++ cleared') :=
  List.rel_append h h'

/-- Both parts of a cleared text are cleared. -/
lemma split {first second : List Char} (h : ClearedTo text (first ++ second)) :
    ∃ first' second', text = first' ++ second' ∧ ClearedTo first' first ∧
      ClearedTo second' second :=
  ⟨text.take first.length, text.drop first.length, (List.take_append_drop _ _).symm,
    List.forall₂_take_append _ _ _ h, List.forall₂_drop_append _ _ _ h⟩

/-- Only spaces have come into a cleared text. -/
lemma eq_of_notMem (h : ClearedTo text cleared) (hspace : ' ' ∉ cleared) : text = cleared := by
  induction h with
  | nil => rfl
  | cons hc _ ih =>
      rw [List.mem_cons, not_or] at hspace
      obtain rfl | ⟨-, rfl⟩ := hc
      · rw [ih hspace.2]
      · exact absurd rfl hspace.1

/-- A leading part without spaces is the same in the text. -/
lemma of_append {second : List Char} (first : List Char)
    (h : ClearedTo text (first ++ second)) (hspace : ' ' ∉ first) :
    ∃ rest, text = first ++ rest ∧ ClearedTo rest second := by
  obtain ⟨first', rest, rfl, hfirst, hrest⟩ := h.split
  exact ⟨rest, by rw [hfirst.eq_of_notMem hspace], hrest⟩

/-- Characters that start a rule are not cleared. -/
lemma eq_of_starts (h : ClearedTo text cleared) (hstarts : ∀ c ∈ text, Starts c) :
    text = cleared := by
  induction h with
  | nil => rfl
  | cons hc _ ih =>
      obtain ⟨hfirst, hlater⟩ := List.forall_mem_cons.1 hstarts
      obtain rfl | ⟨hnot, -⟩ := hc
      · rw [ih hlater]
      · exact absurd hfirst hnot

lemma infix_of_starts {part : List Char} (h : ClearedTo text cleared)
    (hpart : ∀ c ∈ part, Starts c) (hwithin : part <:+: text) : part <:+: cleared := by
  obtain ⟨before, behind, rfl⟩ := hwithin
  have hcleared : ClearedTo part ((cleared.drop before.length).take part.length) := by
    have hpart' := List.forall₂_take part.length (List.forall₂_drop before.length h)
    rwa [List.append_assoc, List.drop_left, List.take_left] at hpart'
  rw [hcleared.eq_of_starts hpart]
  exact (List.take_prefix _ _).isInfix.trans (List.drop_suffix _ _).isInfix

lemma mem_of_starts {c : Char} (h : ClearedTo text cleared) (hc : Starts c) (hmem : c ∈ text) :
    c ∈ cleared := by
  rw [← List.singleton_infix_iff] at hmem ⊢
  exact h.infix_of_starts (List.forall_mem_singleton.2 hc) hmem

end ClearedTo

lemma starts_newline : Starts '\n' := ⟨.newline, [], [], .newline⟩

lemma starts_quote : Starts '"' := ⟨.token .string, ['"'], [], @Shape.string [] [] (by simp)⟩

lemma starts_of_symbol {c : Char} {s : Symbol} (h : s.chars = [c]) : Starts c :=
  ⟨.token (.symbol s), [], [], h ▸ .symbol⟩

lemma starts_commentEnd : ∀ c ∈ ['*', '/'], Starts c := by
  simp only [List.forall_mem_cons]
  exact ⟨starts_of_symbol (s := .star) rfl, starts_of_symbol (s := .slash) rfl, by simp⟩

/-! ### Rules on cleared text -/

lemma space_notMem_of_run {p : Char → Prop} {text : List Char} (h : Run p text) (hp : ¬ p ' ') :
    ' ' ∉ text := fun hmem => hp (h.2 ' ' hmem)

lemma space_notMem_of_word {text : List Char} (h : Word text) : ' ' ∉ text := by
  obtain ⟨c, more, rfl, hc, hmore⟩ := h
  have hletter : ¬ Letter ' ' := fun hl => absurd (isWordStart_iff.2 hl) (by decide)
  have hdigit : ¬ Digit ' ' := fun hd => absurd (isDigit_iff.2 hd) (by decide)
  rw [List.mem_cons, not_or]
  refine ⟨?_, fun hmem => (hmore _ hmem).elim hletter hdigit⟩
  rintro rfl
  exact hletter hc

/-- **Where a rule matches a cleared text, it matches the text**, unless it is the rule of
blanks. Spaces stand only in comments and strings, which may hold any other character in
their place, and no delimiter has been cleared. -/
theorem Shape.of_cleared {rule : Rule} {text rest text' rest' : List Char}
    (h : Shape rule text' rest') (hblank : rule ≠ .blank) (htext : ClearedTo text text')
    (hrest : ClearedTo rest rest') : Shape rule text rest := by
  have hdigit : ¬ Digit ' ' := fun hd => absurd (isDigit_iff.2 hd) (by decide)
  cases h with
  | blank h => exact absurd rfl hblank
  | newline =>
      rw [htext.eq_of_notMem (by decide)]
      exact .newline
  | @lineComment body _ hbody hend =>
      obtain ⟨body', rfl, hcleared⟩ := htext.of_append ['/', '/'] (by decide)
      refine .lineComment (fun hmem => hbody (hcleared.mem_of_starts starts_newline hmem)) ?_
      obtain rfl | ⟨more, rfl⟩ := hend
      · exact .inl (List.forall₂_nil_right_iff.1 hrest)
      · obtain ⟨more', rfl, -⟩ := hrest.of_append ['\n'] (by decide)
        exact .inr ⟨more', rfl⟩
  | @blockComment body _ hbody =>
      obtain ⟨inner, rfl, hinner⟩ := htext.of_append ['/', '*'] (by decide)
      obtain ⟨body', close, rfl, hbody', hclose⟩ := hinner.split
      rw [hclose.eq_of_notMem (by decide)]
      refine .blockComment fun hwithin => hbody ?_
      exact (hbody'.append (.refl ['*'])).infix_of_starts starts_commentEnd hwithin
  | @openComment body hbody =>
      obtain ⟨body', rfl, hcleared⟩ := htext.of_append ['/', '*'] (by decide)
      rw [List.forall₂_nil_right_iff.1 hrest]
      exact .openComment fun hwithin => hbody (hcleared.infix_of_starts starts_commentEnd hwithin)
  | @symbol s _ =>
      have hspace : ' ' ∉ s.chars := by cases s <;> decide
      rw [htext.eq_of_notMem hspace]
      exact .symbol
  | whole h =>
      rw [htext.eq_of_notMem (space_notMem_of_run h hdigit)]
      exact .whole h
  | @decimal digits fraction _ h h' =>
      have hspace : ' ' ∉ digits ++ '.' :: fraction := by
        simp [space_notMem_of_run h hdigit, space_notMem_of_run h' hdigit]
      rw [htext.eq_of_notMem hspace]
      exact .decimal h h'
  | @keyword k _ =>
      rw [htext.eq_of_notMem (space_notMem_of_word (keyword_word k))]
      exact .keyword
  | identifier h h' =>
      rw [htext.eq_of_notMem (space_notMem_of_word h)]
      exact .identifier h h'
  | @string body _ hbody =>
      obtain ⟨inner, rfl, hinner⟩ := htext.of_append ['"'] (by decide)
      obtain ⟨body', close, rfl, hbody', hclose⟩ := hinner.split
      rw [hclose.eq_of_notMem (by decide)]
      exact .string fun hmem => hbody (hbody'.mem_of_starts starts_quote hmem)
  | @openString body hbody =>
      obtain ⟨body', rfl, hcleared⟩ := htext.of_append ['"'] (by decide)
      rw [List.forall₂_nil_right_iff.1 hrest]
      exact .openString fun hmem => hbody (hcleared.mem_of_starts starts_quote hmem)

/-- A match stays one when the source behind it is cleared. -/
lemma Matches.before_cleared {rule : Rule} {text rest rest' : List Char}
    (h : Matches rule text rest) (hrest : ClearedTo rest rest') : Matches rule text rest' := by
  cases h with
  | unexpected h => exact .unexpected h
  | shape h =>
      refine .shape ?_
      cases h with
      | blank h => exact .blank h
      | newline => exact .newline
      | lineComment h hend =>
          refine .lineComment h ?_
          obtain rfl | ⟨more, rfl⟩ := hend
          · exact .inl (List.forall₂_nil_left_iff.1 hrest)
          · cases hrest with
            | cons hc _ =>
                obtain rfl | ⟨hnot, -⟩ := hc
                · exact .inr ⟨_, rfl⟩
                · exact absurd starts_newline hnot
      | blockComment h => exact .blockComment h
      | openComment h =>
          rw [List.forall₂_nil_left_iff.1 hrest]
          exact .openComment h
      | symbol => exact .symbol
      | whole h => exact .whole h
      | decimal h h' => exact .decimal h h'
      | keyword => exact .keyword
      | identifier h h' => exact .identifier h h'
      | string h => exact .string h
      | openString h =>
          rw [List.forall₂_nil_left_iff.1 hrest]
          exact .openString h

end Lexical

open Lexical

namespace Segment

/-! ### Segments of cleared sources -/

lemma exists_text_first (c : Char) (rest : List Char) :
    ∃ more, (first c rest).1.text = c :: more := by
  obtain ⟨d, more, htext⟩ := List.exists_cons_of_ne_nil (first_ne_nil c rest)
  have happ := first_append c rest
  rw [htext, List.cons_append] at happ
  obtain ⟨rfl, -⟩ := List.cons.inj happ
  exact ⟨more, htext⟩

/-- **A segment ends where it is** when the source behind it is cleared, unless it is a run
of blanks, which may go on over the spaces. -/
theorem cut_before_cleared {c : Char} {rest rest' : List Char}
    (hblank : (first c rest).1.rule ≠ .blank) (hrest : ClearedTo (first c rest).2 rest') :
    cut ((first c rest).1.text ++ rest') = (first c rest).1 :: cut rest' := by
  obtain ⟨d, more, hsource, hlonger | hfirst⟩ :=
    ((matches_first c rest).before_cleared hrest).within
  · -- A longer match in the cleared source would be one in the source, too.
    exfalso
    have hlong := matches_first d more
    have happ := first_append d more
    generalize first d more = other at hlonger hlong happ
    obtain ⟨⟨rule, long⟩, behind⟩ := other
    have hall : ClearedTo (c :: rest) (long ++ behind) := by
      rw [happ, ← hsource, ← first_append c rest]
      exact (ClearedTo.refl _).append hrest
    obtain ⟨text, rest'', hsplit, htext, hrest''⟩ := hall.split
    cases hlong with
    | unexpected _ =>
        have hsome := List.length_pos_iff.2 (first_ne_nil c rest)
        simp only [List.length_singleton] at hlonger
        omega
    | shape hshape =>
        by_cases hrule : rule = .blank
        · subst hrule
          obtain ⟨tail, hhead⟩ := exists_text_first c rest
          cases hshape with
          | blank h =>
              obtain ⟨e, blanks, rfl⟩ := List.exists_cons_of_ne_nil h.1
              rw [← hsource, hhead, List.cons_append, List.cons_append] at happ
              obtain ⟨rfl, -⟩ := List.cons.inj happ
              rw [first_of_isBlank rest (isBlank_iff.2 (h.2 _ List.mem_cons_self))] at hblank
              exact hblank rfl
        · have hle := (longest_first c rest).length_le
            (.shape (hshape.of_cleared hrule htext hrest'')) (by rw [← hsplit, first_append])
          have hlength := htext.length_eq
          dsimp only at hlonger
          omega
  · rw [hsource, cut, hfirst]

/-- The text of a segment, or a space if the segment is an unexpected character. -/
def clearedText (segment : Segment) : List Char :=
  if segment.rule = .error .unexpectedCharacter then [' '] else segment.text

/-- An unexpected character is a segment of its own, and starts no rule. -/
lemma exists_of_unexpected {rule : Rule} {text rest : List Char} (h : Matches rule text rest)
    (hrule : rule = .error .unexpectedCharacter) : ∃ c, text = [c] ∧ ¬ Starts c := by
  cases h with
  | shape h =>
      subst hrule
      cases h
  | @unexpected c _ h => exact ⟨c, rfl, h⟩

lemma clearedTo_clearedText (source : List Char) :
    ClearedTo source ((cut source).flatMap clearedText) := by
  induction source using cut.induct with
  | case1 =>
      rw [cut]
      exact .nil
  | case2 c rest ih =>
      have hfirst : ClearedTo (first c rest).1.text (first c rest).1.clearedText := by
        by_cases hrule : (first c rest).1.rule = .error .unexpectedCharacter
        · obtain ⟨d, htext, hd⟩ := exists_of_unexpected (matches_first c rest) hrule
          rw [clearedText, if_pos hrule, htext]
          exact .cons (.inr ⟨hd, rfl⟩) .nil
        · rw [clearedText, if_neg hrule]
          exact .refl _
      have hall := hfirst.append ih
      rwa [first_append, ← List.flatMap_cons, ← cut] at hall

end Segment

/-! ### Scans of cleared sources -/

/-- The diagnostic is about an unexpected character. -/
def Diagnostic.isUnexpected (d : Diagnostic) : Bool :=
  "Unexpected character: ".toList.isPrefixOf d.message.toList

lemma LexicalError.describe_unexpectedCharacter (text : List Char) :
    unexpectedCharacter.describe text =
      "Unexpected character: " ++ String.singleton (text.headD '\x00') := rfl

lemma LexicalError.describe_unterminatedString (text : List Char) :
    unterminatedString.describe text = "Unterminated string." := rfl

lemma Diagnostic.isUnexpected_describe (position : Position) (cause : LexicalError)
    (text : List Char) :
    (atPosition position (cause.describe text)).isUnexpected =
      (cause == .unexpectedCharacter) := by
  show "Unexpected character: ".toList.isPrefixOf (cause.describe text).toList = _
  cases cause with
  | unexpectedCharacter =>
      rw [LexicalError.describe_unexpectedCharacter, String.toList_append, beq_self_eq_true,
        List.isPrefixOf_iff_prefix]
      exact List.prefix_append _ _
  | unterminatedString =>
      rw [LexicalError.describe_unterminatedString]
      decide

/-- A complaint at a position is about no other. -/
lemma Diagnostic.position_eq_of_atPosition {p q : Position} {message message' : String}
    (h : atPosition p message = atPosition q message') : p = q := by
  obtain ⟨line, column⟩ := p
  obtain ⟨line', column'⟩ := q
  simp only [atPosition, malformed.injEq, Option.some.injEq] at h
  rw [h.1, h.2.1]

/-- The complaint about a segment at a position, if it is an error. -/
def Segment.complaints (segment : Segment) (position : Position) : Report :=
  match segment.rule with
  | .error cause => [.atPosition position (cause.describe segment.text)]
  | _ => []

lemma Segment.exists_of_mem_complaints {segment : Segment} {position : Position} {d : Diagnostic}
    (h : d ∈ segment.complaints position) :
    ∃ cause, segment.rule = .error cause ∧
      d = .atPosition position (cause.describe segment.text) := by
  rw [complaints] at h
  split at h
  case h_1 cause hrule => exact ⟨cause, hrule, List.mem_singleton.1 h⟩
  case h_2 => cases h

namespace Scan

/-- The scan without the complaints about unexpected characters. -/
def expected (s : Scan) : Scan := ⟨s.tokens, s.report.filter (!·.isUnexpected)⟩

lemma expected_prepend {segment : Segment} (h : segment.rule ≠ .error .unexpectedCharacter)
    (position : Position) (later : Scan) :
    (prepend segment position later).expected = prepend segment position later.expected := by
  rw [prepend.eq_def, prepend.eq_def]
  split
  · rfl
  · rename_i cause hrule
    have hcause : cause ≠ .unexpectedCharacter := by
      rintro rfl
      exact h hrule
    simp [expected, Diagnostic.isUnexpected_describe, hcause]
  · rfl

lemma expected_prepend_unexpected {segment : Segment}
    (h : segment.rule = .error .unexpectedCharacter) (position : Position) (later : Scan) :
    (prepend segment position later).expected = later.expected := by
  simp [prepend, h, expected, Diagnostic.isUnexpected_describe]

/-- Of the text before the segments, only the position behind it counts. -/
lemma counted_congr {before before' : List Char}
    (h : Position.behind before = Position.behind before') (segments : List Segment) :
    counted before segments = counted before' segments := by
  induction segments generalizing before before' with
  | nil => rw [counted, counted, h]
  | cons segment segments ih =>
      have hnext : Position.behind (before ++ segment.text) =
          Position.behind (before' ++ segment.text) := by
        rw [Position.behind_append, h, ← Position.behind_append]
      rw [counted, counted, h, ih hnext]

/-- A blank only moves on what stands behind it. -/
lemma counted_cut_blank {c : Char} (hc : Segment.isBlank c = true) (before rest : List Char) :
    counted before (Segment.cut (c :: rest)) =
      counted (before ++ [c]) (Segment.cut rest) := by
  have hskip : ∀ (before : List Char) c rest, Segment.isBlank c = true →
      counted before (Segment.cut (c :: rest)) =
        counted (before ++ c :: rest.takeWhile Segment.isBlank)
          (Segment.cut (rest.dropWhile Segment.isBlank)) := by
    intro before c rest hc
    rw [Segment.cut, first_of_isBlank rest hc, List.takeWhile_cons_of_pos hc,
      List.dropWhile_cons_of_pos hc]
    rfl
  rw [hskip before c rest hc]
  cases rest with
  | nil => rfl
  | cons d rest =>
      by_cases hd : Segment.isBlank d = true
      · rw [hskip _ d rest hd, List.takeWhile_cons_of_pos hd, List.dropWhile_cons_of_pos hd,
          List.append_assoc, List.singleton_append]
      · rw [List.takeWhile_cons_of_neg hd, List.dropWhile_cons_of_neg hd]

lemma counted_cut_blanks {blanks : List Char} (h : ∀ c ∈ blanks, Segment.isBlank c = true)
    (before rest : List Char) :
    counted before (Segment.cut (blanks ++ rest)) =
      counted (before ++ blanks) (Segment.cut rest) := by
  induction blanks generalizing before with
  | nil => rw [List.nil_append, List.append_nil]
  | cons c blanks ih =>
      obtain ⟨hc, hblanks⟩ := List.forall_mem_cons.1 h
      rw [List.cons_append, counted_cut_blank hc, ih hblanks, List.append_assoc,
        List.singleton_append]

/-- **A cleared source is scanned like the source**, without the complaints about
unexpected characters. -/
theorem counted_cleared (source before : List Char) :
    counted before (Segment.cut ((Segment.cut source).flatMap Segment.clearedText)) =
      (counted before (Segment.cut source)).expected := by
  induction source using Segment.cut.induct generalizing before with
  | case1 => simp [Segment.cut, counted, expected]
  | case2 c rest ih =>
      rw [Segment.cut, List.flatMap_cons]
      by_cases hrule : (Segment.first c rest).1.rule = .error .unexpectedCharacter
      · obtain ⟨d, htext, hd⟩ := Segment.exists_of_unexpected (matches_first c rest) hrule
        have hline : d ≠ '\n' := by
          rintro rfl
          exact hd starts_newline
        have hplace : Position.behind (before ++ [' ']) = Position.behind (before ++ [d]) := by
          rw [Position.behind_concat, Position.behind_concat, Position.past, Position.past,
            if_neg (by decide), if_neg hline]
        rw [Segment.clearedText, if_pos hrule, List.singleton_append, counted_cut_blank rfl, ih,
          counted, expected_prepend_unexpected hrule, htext, counted_congr hplace]
      rw [Segment.clearedText, if_neg hrule, counted, expected_prepend hrule, ← ih]
      by_cases hblank : (Segment.first c rest).1.rule = .blank
      · have hall : ∀ d ∈ (Segment.first c rest).1.text, Segment.isBlank d = true := by
          have hmatch := matches_first c rest
          generalize (Segment.first c rest).1.text = text at hmatch
          rw [hblank] at hmatch
          cases hmatch with
          | shape h =>
              cases h with
              | blank h => exact fun d hd => isBlank_iff.2 (h.2 d hd)
        rw [counted_cut_blanks hall, prepend, hblank]
      · rw [Segment.cut_before_cleared hblank (Segment.clearedTo_clearedText _), counted]

lemma report_prepend (segment : Segment) (position : Position) (later : Scan) :
    (prepend segment position later).report = segment.complaints position ++ later.report := by
  rw [prepend.eq_def, Segment.complaints]
  cases segment.rule <;> rfl

/-- Every complaint about segments is about a place behind the text before them. -/
lemma exists_of_mem_report {before : List Char} {segments : List Segment} {d : Diagnostic}
    (h : d ∈ (counted before segments).report) :
    ∃ text message, d = .atPosition (.behind (before ++ text)) message := by
  induction segments generalizing before with
  | nil => cases h
  | cons segment segments ih =>
      rw [counted, report_prepend, List.mem_append] at h
      obtain h | h := h
      · obtain ⟨cause, -, rfl⟩ := Segment.exists_of_mem_complaints h
        exact ⟨[], _, by rw [List.append_nil]⟩
      · obtain ⟨text, message, rfl⟩ := ih h
        exact ⟨segment.text ++ text, message, by rw [List.append_assoc]⟩

end Scan

/-! ### Reported characters -/

/-- The complaint about a character behind a text, if it is unexpected there. -/
def Diagnostic.unexpected (before : List Char) (c : Char) : Diagnostic :=
  .atPosition (.behind before) (LexicalError.unexpectedCharacter.describe [c])

/-- Text that stands behind another one, with a space in place of every character that is
reported as unexpected. -/
def clearReported (report : Report) (before : List Char) : (text : List Char) → List Char
  | [] => []
  | c :: text =>
    (if .unexpected before c ∈ report then ' ' else c) ::
      clearReported report (before ++ [c]) text

/-- The source with a space in place of every character that its scan reports as unexpected. -/
def cleared (source : String) : String :=
  String.ofList (clearReported (scan source).report [] source.toList)

-- Inside strings and comments, nothing is unexpected.
example : cleared "a§§1.@ \"@\" // @" = "a  1.  \"@\" // @" := by decide +kernel

lemma clearReported_append (report : Report) (before text more : List Char) :
    clearReported report before (text ++ more) =
      clearReported report before text ++ clearReported report (before ++ text) more := by
  induction text generalizing before with
  | nil => rw [List.nil_append, List.append_nil, clearReported, List.nil_append]
  | cons c text ih =>
      rw [List.cons_append, clearReported, ih, clearReported, List.cons_append,
        List.append_assoc, List.singleton_append]

lemma clearReported_of_notMem {report : Report} {before text : List Char}
    (h : ∀ t c t', text = t ++ c :: t' → .unexpected (before ++ t) c ∉ report) :
    clearReported report before text = text := by
  induction text generalizing before with
  | nil => rfl
  | cons c text ih =>
      have hfirst := h [] c text rfl
      rw [List.append_nil] at hfirst
      rw [clearReported, if_neg hfirst, ih]
      rintro t d t' rfl
      rw [List.append_assoc, List.singleton_append]
      exact h (c :: t) d t' rfl

/-- A segment that is no unexpected character is kept, since no complaint of that kind is
about a place inside it. -/
lemma clearReported_of_expected {segment : Segment} {before : List Char} {earlier : Report}
    (hrule : segment.rule ≠ .error .unexpectedCharacter)
    (hearlier : ∀ d ∈ earlier, ∃ text c text' message, before = text ++ c :: text' ∧
      d = .atPosition (.behind text) message) (segments : List Segment) :
    clearReported (earlier ++ (Scan.counted before (segment :: segments)).report) before
      segment.text = segment.text := by
  refine clearReported_of_notMem ?_
  intro t c t' htext hmem
  rw [Scan.counted, Scan.report_prepend, List.mem_append, List.mem_append] at hmem
  rcases hmem with hmem | hmem | hmem
  · obtain ⟨text, e, text', message, rfl, heq⟩ := hearlier _ hmem
    have hplace := Diagnostic.position_eq_of_atPosition heq
    rw [List.append_assoc] at hplace
    exact Position.behind_append_ne text (by simp) hplace
  · obtain ⟨cause, hcause, heq⟩ := Segment.exists_of_mem_complaints hmem
    have hkind := congrArg Diagnostic.isUnexpected heq
    rw [Diagnostic.unexpected, Diagnostic.isUnexpected_describe,
      Diagnostic.isUnexpected_describe, beq_self_eq_true, eq_comm, beq_iff_eq] at hkind
    exact hrule (hkind ▸ hcause)
  · obtain ⟨text, message, heq⟩ := Scan.exists_of_mem_report hmem
    have hplace := Diagnostic.position_eq_of_atPosition heq
    rw [htext, ← List.append_assoc, List.append_assoc (before ++ t)] at hplace
    exact Position.behind_append_ne (before ++ t) (by simp) hplace.symm

/-- **The characters that are reported of segments** are those that are segments of their own
and unexpected. The complaints about what stands before the segments are all about earlier
places. -/
theorem clearReported_segments {rest : List Char} {segments : List Segment}
    (hcut : IsCut rest segments) {before : List Char} {earlier : Report}
    (hearlier : ∀ d ∈ earlier, ∃ text c text' message, before = text ++ c :: text' ∧
      d = .atPosition (.behind text) message) :
    clearReported (earlier ++ (Scan.counted before segments).report) before rest =
      segments.flatMap Segment.clearedText := by
  induction hcut generalizing before earlier with
  | nil => rfl
  | @cons segment rest segments h _ ih =>
      obtain ⟨c, more, -, hfirst⟩ := h.first_eq
      have hne : segment.text ≠ [] := by
        have hne := Segment.first_ne_nil c more
        rwa [hfirst] at hne
      have hreport : (Scan.counted before (segment :: segments)).report =
          segment.complaints (.behind before) ++
            (Scan.counted (before ++ segment.text) segments).report := Scan.report_prepend _ _ _
      have hlater : clearReported (earlier ++ (Scan.counted before (segment :: segments)).report)
          (before ++ segment.text) rest = segments.flatMap Segment.clearedText := by
        rw [hreport, ← List.append_assoc]
        refine ih ?_
        intro d hd
        rcases List.mem_append.1 hd with hd | hd
        · obtain ⟨text, e, text', message, rfl, rfl⟩ := hearlier d hd
          exact ⟨text, e, text' ++ segment.text, message, by simp, rfl⟩
        · obtain ⟨cause, -, rfl⟩ := Segment.exists_of_mem_complaints hd
          obtain ⟨e, text', htext⟩ := List.exists_cons_of_ne_nil hne
          exact ⟨before, e, text', _, by rw [htext], rfl⟩
      rw [clearReported_append, hlater, List.flatMap_cons, Segment.clearedText]
      by_cases hrule : segment.rule = .error .unexpectedCharacter
      · obtain ⟨e, htext, -⟩ := Segment.exists_of_unexpected h.isMatch hrule
        have hown : segment.complaints (.behind before) = [.unexpected before e] := by
          rw [Segment.complaints, hrule, htext]
          rfl
        rw [if_pos hrule, hreport, hown, htext, clearReported, if_pos (by simp), clearReported]
      · rw [if_neg hrule, clearReported_of_expected hrule hearlier]

/-- The cleared source, in terms of the segments of the source. -/
lemma toList_cleared (source : String) :
    (cleared source).toList = (Segment.cut source.toList).flatMap Segment.clearedText := by
  have hcut : IsCut source.toList (Segment.cut source.toList) := isCut_iff.2 rfl
  rw [cleared, String.toList_ofList, Scan.scan_eq_counted]
  exact clearReported_segments hcut (List.forall_mem_nil _)

/-- **An unexpected character acts like a space.** Put a space in place of every character
that the scan of a source reports as unexpected. Then the scan has the same tokens with the
same positions, and reports the same but for the unexpected characters. -/
theorem scan_cleared (source : String) :
    (scan (cleared source)).tokens = (scan source).tokens ∧
      (scan (cleared source)).report = (scan source).report.filter (!·.isUnexpected) := by
  have hscan : scan (cleared source) = (scan source).expected := by
    rw [Scan.scan_eq_counted, toList_cleared, Scan.counted_cleared, Scan.scan_eq_counted]
  rw [hscan]
  exact ⟨rfl, rfl⟩

end Scriptlet
