import Scriptlet.Proofs.Token.Delimiter
import Scriptlet.Proofs.Token.Positions

/-!
The lexemes of a source are scanned back.

A space ends every token, and every lexeme by itself is scanned as one token. So the lexemes
of a source with single spaces between them are cut into the same lexemes, with blanks between
them, however the source was laid out and whatever errors it had.

* `Segment.IsLexeme`: tokens that are scanned back whole.
* `Segment.isLexeme_of_mem_cut`: the tokens of every source are of this kind.
* `Segment.cut_spaced`: lexemes with spaces between them are cut at the spaces.
* `scan_spaced_lexemes`: a source and its lexemes with spaces between them have the same
  tokens.
-/

namespace Scriptlet

open Lexical

namespace Segment

/-! ### Lexemes -/

/-- The segment is a token, and alone it is scanned as this token. -/
def IsLexeme (segment : Segment) : Prop :=
  (∃ kind, segment.rule = .token kind) ∧
    ∃ c tail, segment.text = c :: tail ∧ first c tail = (segment, [])

/-- The rules of tokens do not ask for what stands behind the text, so a token is one also
when it stands alone. -/
lemma isLexeme_of_shape {kind : Token.Kind} {text rest : List Char}
    (h : Shape (.token kind) text rest) : IsLexeme ⟨.token kind, text⟩ := by
  have halone : Shape (.token kind) text [] := by
    cases h with
    | symbol => exact .symbol
    | whole h => exact .whole h
    | decimal h h' => exact .decimal h h'
    | keyword => exact .keyword
    | identifier h h' => exact .identifier h h'
    | string h => exact .string h
  obtain ⟨c, tail, rfl, -⟩ := h.head
  exact ⟨⟨kind, rfl⟩, c, tail, rfl, first_of_shape halone⟩

/-- Every token of a source has the form of its kind. -/
lemma shape_of_mem_cut {source : List Char} :
    ∀ segment ∈ cut source, ∀ kind, segment.rule = .token kind →
      ∃ rest, Shape (.token kind) segment.text rest := by
  induction source using cut.induct with
  | case1 => simp [cut]
  | case2 c rest ih =>
      rw [cut]
      refine List.forall_mem_cons.2 ⟨?_, ih⟩
      intro kind hkind
      have hmatch := matches_first c rest
      rw [hkind] at hmatch
      cases hmatch with
      | shape hshape => exact ⟨_, hshape⟩

/-- **Every token of a source is scanned back whole.** -/
lemma isLexeme_of_mem_cut {source : List Char} :
    ∀ segment ∈ cut source, segment.rule.kind?.isSome → segment.IsLexeme := by
  rintro ⟨rule, text⟩ hmem hkind
  cases rule with
  | token kind =>
      obtain ⟨rest, hshape⟩ := shape_of_mem_cut _ hmem kind rfl
      exact isLexeme_of_shape hshape
  | blank | newline | lineComment | blockComment | error => cases hkind

/-! ### Spaces between lexemes -/

/-- A delimiter ends a lexeme, whatever follows. -/
lemma IsLexeme.cut_before {segment : Segment} {d : Char} (h : segment.IsLexeme)
    (hd : Delimiter d) (more : List Char) :
    cut (segment.text ++ d :: more) = segment :: cut (d :: more) := by
  obtain ⟨⟨kind, hkind⟩, c, tail, htext, hfirst⟩ := h
  have hover : ¬ (first c tail).1.RunsOver d := by
    rw [hfirst, RunsOver, hkind]
    exact not_false
  rw [htext, List.cons_append, cut, first_before hd hover, hfirst, List.nil_append]

/-- A lexeme does not start with a blank. -/
lemma IsLexeme.exists_head {segment : Segment} (h : segment.IsLexeme) :
    ∃ c tail, segment.text = c :: tail ∧ ¬ isBlank c = true := by
  obtain ⟨⟨kind, hkind⟩, c, tail, htext, hfirst⟩ := h
  refine ⟨c, tail, htext, ?_⟩
  intro hblank
  rw [first, if_pos hblank] at hfirst
  rw [← congrArg (·.1.rule) hfirst] at hkind
  cases hkind

lemma cut_space {c : Char} (h : ¬ isBlank c = true) (rest : List Char) :
    cut (' ' :: c :: rest) = ⟨.blank, [' ']⟩ :: cut (c :: rest) := by
  rw [cut, first_of_isBlank _ rfl, List.takeWhile_cons_of_pos rfl, List.takeWhile_cons_of_neg h,
    List.dropWhile_cons_of_pos rfl, List.dropWhile_cons_of_neg h]

/-- **Lexemes with single spaces between them** are cut at the spaces. -/
theorem cut_spaced {segments : List Segment} (h : ∀ segment ∈ segments, segment.IsLexeme) :
    cut ([' '].intercalate (segments.map (·.text))) = segments.intersperse ⟨.blank, [' ']⟩ := by
  match segments with
  | [] => rw [List.map_nil, List.intercalate_nil, cut, List.intersperse_nil]
  | [segment] =>
      obtain ⟨-, c, tail, htext, hfirst⟩ := h segment (List.mem_singleton_self _)
      rw [List.map_singleton, List.intercalate_singleton, htext, cut, hfirst, cut,
        List.intersperse_singleton]
  | segment :: next :: segments =>
      obtain ⟨hsegment, hlater⟩ := List.forall_mem_cons.1 h
      have hspaced := cut_spaced hlater
      obtain ⟨c, tail, htext, hblank⟩ := (List.forall_mem_cons.1 hlater).1.exists_head
      rw [List.map_cons, htext, List.intercalate_cons_cons_left] at hspaced
      rw [List.map_cons, List.map_cons, List.intercalate_cons_cons, List.append_assoc,
        List.singleton_append, hsegment.cut_before delimiter_space, htext,
        List.intercalate_cons_cons_left, cut_space hblank, hspaced, List.intersperse_cons_cons]

/-! ### The tokens of a source -/

/-- The segments of a source that are tokens. -/
def lexemes (source : List Char) : List Segment :=
  (cut source).filter (·.rule.kind?.isSome)

lemma isLexeme_of_mem_lexemes {source : List Char} :
    ∀ segment ∈ lexemes source, segment.IsLexeme := by
  intro segment hmem
  obtain ⟨hcut, hkind⟩ := List.mem_filter.1 hmem
  exact isLexeme_of_mem_cut segment hcut hkind

/-- What becomes nothing between other things may be left out. -/
lemma filterMap_intersperse {α β : Type} {f : α → Option β} {a : α} (h : f a = none)
    (l : List α) : (l.intersperse a).filterMap f = l.filterMap f := by
  match l with
  | [] => rfl
  | [b] => rfl
  | b :: c :: l =>
      rw [List.intersperse_cons_cons, List.filterMap_cons, List.filterMap_cons, h,
        filterMap_intersperse h, ← List.filterMap_cons]

lemma filterMap_lexeme?_lexemes (source : List Char) :
    (lexemes source).filterMap lexeme? = (cut source).filterMap lexeme? := by
  rw [lexemes, List.filterMap_filter]
  congr 1
  funext segment
  rw [lexeme?]
  cases segment.rule.kind? <;> rfl

lemma map_text_lexemes (source : List Char) :
    (lexemes source).map (·.text) = ((cut source).filterMap lexeme?).map (·.2.toList) := by
  rw [← filterMap_lexeme?_lexemes, List.map_filterMap, ← List.filterMap_eq_map]
  refine List.filterMap_congr ?_
  intro segment hmem
  obtain ⟨⟨kind, hkind⟩, -⟩ := isLexeme_of_mem_lexemes segment hmem
  simp [lexeme?, hkind, Rule.kind?]

/-- No token is complained about. -/
lemma filterMap_complaint?_lexemes (source : List Char) :
    (lexemes source).filterMap complaint? = [] := by
  rw [List.filterMap_eq_nil_iff]
  intro segment hmem
  obtain ⟨⟨kind, hkind⟩, -⟩ := isLexeme_of_mem_lexemes segment hmem
  rw [complaint?, hkind]

end Segment

/-- A scanned token carries the literal of its text. -/
lemma literal_of_mem_ofSegments {source : List Char} {cursor : Cursor} {segments : List Segment}
    {token : Token} (h : token ∈ (Scan.ofSegments source cursor segments).tokens) :
    token.literal = Literal.ofText? token.kind token.lexeme.toList := by
  induction segments generalizing cursor with
  | nil =>
      cases List.mem_singleton.1 h
      rfl
  | cons segment segments ih =>
      rw [Scan.ofSegments, Scan.prepend] at h
      split at h
      · obtain rfl | h := List.mem_cons.1 h
        · simp [Token.ofText]
        · exact ih h
      · exact ih h
      · exact ih h

/-- Sources with the same kinds and lexemes have tokens of the same content. -/
lemma map_content_of_lexemes {source source' : String}
    (h : (scan source).tokens.map (fun t => (t.kind, t.lexeme)) =
      (scan source').tokens.map fun t => (t.kind, t.lexeme)) :
    (scan source).tokens.map Token.content = (scan source').tokens.map Token.content := by
  have hcontent : ∀ source, (scan source).tokens.map Token.content =
      ((scan source).tokens.map fun t => (t.kind, t.lexeme)).map
        fun (kind, lexeme) => (kind, lexeme, Literal.ofText? kind lexeme.toList) := by
    intro source
    rw [List.map_map]
    refine List.map_congr_left ?_
    intro token hmem
    rw [Token.content, literal_of_mem_ofSegments hmem]
    rfl
  rw [hcontent, hcontent, h]

/-- The lexemes of the tokens are the texts of the segments that are tokens. -/
lemma toList_spaced {source : String} {tokens : List Token} {position : Position}
    (h : (scan source).tokens = tokens ++ [.endOfInput position]) :
    (" ".intercalate (tokens.map (·.lexeme))).toList =
      [' '].intercalate ((Segment.lexemes source.toList).map (·.text)) := by
  have hall : (scan source).tokens.map (fun t => (t.kind, t.lexeme)) = _ :=
    tokens_ofSegments _ _ _
  rw [h, List.map_append] at hall
  have htokens := List.append_cancel_right hall
  rw [Segment.map_text_lexemes, ← htokens, String.toList_intercalate, List.map_map, List.map_map]
  rfl

/-- **The lexemes of a source, with single spaces between them, are scanned as the same
tokens.** Whatever errors the source has, none is reported of its lexemes, and kinds, lexemes
and literals come back in the same order, with an end marker behind them. -/
theorem scan_spaced_lexemes (source : String) :
    ∃ tokens position, (scan source).tokens = tokens ++ [.endOfInput position] ∧
      ∃ tokens' position',
        scan (" ".intercalate (tokens.map (·.lexeme))) =
          ⟨tokens' ++ [.endOfInput position'], []⟩ ∧
        tokens'.map Token.content = tokens.map Token.content := by
  obtain ⟨tokens, position, htokens, -⟩ := exists_tokens_scan source
  refine ⟨tokens, position, htokens, ?_⟩
  have htext := toList_spaced htokens
  generalize " ".intercalate (tokens.map (·.lexeme)) = spaced at htext ⊢
  obtain ⟨tokens', position', htokens', -⟩ := exists_tokens_scan spaced
  have hcut : Segment.cut spaced.toList =
      (Segment.lexemes source.toList).intersperse ⟨.blank, [' ']⟩ := by
    rw [htext]
    exact Segment.cut_spaced Segment.isLexeme_of_mem_lexemes
  have hreport : (scan spaced).report = [] := by
    have hmessages : (scan spaced).report.map (·.message) = _ :=
      (isCut_iff.2 rfl : IsCut _ (Segment.cut spaced.toList)).report_ofSegments _ _
    rw [hcut, Segment.filterMap_intersperse rfl, Segment.filterMap_complaint?_lexemes] at hmessages
    exact List.map_eq_nil_iff.1 hmessages
  have hsame : (scan spaced).tokens.map (fun t => (t.kind, t.lexeme)) =
      (scan source).tokens.map fun t => (t.kind, t.lexeme) := by
    rw [scan, tokens_ofSegments, hcut, Segment.filterMap_intersperse rfl,
      Segment.filterMap_lexeme?_lexemes, scan, tokens_ofSegments]
  have hcontent := map_content_of_lexemes hsame
  rw [htokens, htokens', List.map_append, List.map_append] at hcontent
  refine ⟨tokens', position', ?_, List.append_cancel_right hcontent⟩
  rw [← htokens', ← hreport]

end Scriptlet
