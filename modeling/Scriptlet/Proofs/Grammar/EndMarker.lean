import Scriptlet.Proofs.Grammar.Locality
import Scriptlet.Proofs.Grammar.Relocation
import Scriptlet.Proofs.Grammar.WellFormed
import Scriptlet.Proofs.Token.Seam

/-!
The end of the input, with and without an end marker.

The grammar does nothing with the end marker but blame it. So tokens without one are read
as the same program as with one, whatever position the marker has, and only complaints
about the end may be at another place. Two places are computed: the scanner counts the
lines of the source, and the reader goes on from the last token by the length of its
lexeme. They agree unless the last lexeme, which is then a string, goes over several lines.

* `Token.endMoved`: tokens with the end marker at another position.
* `Grammar.declarations_endMoved`: the program behind which the end marker is moved.
* `EndsInToken`, `exists_scan_of_endsInToken`: sources with nothing behind the last token,
  and where their end is.
* `ofTokens_without_marker`: the program and the report for the tokens of such a source
  without their end marker.
-/

namespace Scriptlet

/-! ### Programs without end markers -/

/-- The map changes end markers only. -/
def Token.KeepsOthers (f : Token → Token) : Prop := ∀ t : Token, ¬ t.isEnd → f t = t

namespace Token.KeepsOthers

variable {f : Token → Token}

lemma eq_of_kind (hf : KeepsOthers f) {t : Token} {kind : Token.Kind} (h : t.kind = kind)
    (hkind : kind ≠ .endOfInput) : f t = t := by
  refine hf t ?_
  rw [isEnd, h, beq_iff_eq]
  exact hkind

lemma map_eq (hf : KeepsOthers f) {tokens : List Token} (h : ∀ token ∈ tokens, ¬ token.isEnd) :
    tokens.map f = tokens := by
  rw [List.map_congr_left fun token htoken => hf token (h token htoken), List.map_id']

lemma map_expr (hf : KeepsOthers f) {expr : Expr} (h : expr.WellFormed) :
    expr.map f id = expr := by
  induction expr with
  | literal value => rfl
  | grouping inner ih => rw [Expr.map, ih h]
  | unary op operator operand ih =>
      obtain ⟨hop, -, hoperand⟩ := h
      rw [Expr.map, hf.eq_of_kind hop.kind_eq (by simp), ih hoperand]
  | binary op operator left right ihleft ihright =>
      obtain ⟨level, hop, ⟨-, hleft⟩, -, hright⟩ := h
      rw [Expr.map, hf.eq_of_kind hop.kind_eq (by simp), ihleft hleft, ihright hright]
  | read name => rw [Expr.map, hf.eq_of_kind h (by simp)]
  | assign name value ih => rw [Expr.map, hf.eq_of_kind h.1 (by simp), ih h.2]

mutual

/-- A well-formed statement has no end marker in it. -/
theorem map_statement (hf : KeepsOthers f) :
    ∀ statement : Statement, statement.WellFormed → statement.map f id = statement
  | .expression _, h => congrArg Statement.expression (hf.map_expr h)
  | .print _, h => congrArg Statement.print (hf.map_expr h)
  | .declare name none, h => by
      rw [Statement.map, hf.eq_of_kind h.1 (by simp), Option.map_none]
  | .declare name (some initial), h => by
      rw [Statement.map, hf.eq_of_kind h.1 (by simp), Option.map_some,
        hf.map_expr (h.2 initial rfl)]
  | .block body, h => congrArg Statement.block (map_program hf body h)

/-- A well-formed program has no end marker in it. -/
theorem map_program (hf : KeepsOthers f) :
    ∀ program : List Statement, Statement.AllWellFormed program →
      Statement.mapAll f id program = program
  | [], _ => rfl
  | statement :: rest, h => by
      rw [Statement.mapAll, map_statement hf statement h.1, map_program hf rest h.2]

end

end Token.KeepsOthers

/-! ### Another place for the end marker -/

/-- The token, at another position if it is an end marker. -/
def Token.endMoved (move : Position → Position) (t : Token) : Token :=
  if t.isEnd then t.moved move else t

lemma Token.keeps_endMoved (move : Position → Position) : Keeps (Token.endMoved move) := by
  constructor <;> intro t <;> rw [endMoved] <;> split <;> rfl

lemma Token.keepsOthers_endMoved (move : Position → Position) :
    KeepsOthers (Token.endMoved move) := fun _ h => if_neg h

/-- **The end marker is only blamed.** With its end at another position, a program is the
same, and the complaints about the end are at the other position. -/
theorem Grammar.declarations_endMoved (move : Position → Position) (stop : Token)
    {tokens : List Token} (h : ∀ token ∈ tokens, ¬ token.isEnd) :
    declarations (stop.endMoved move) tokens =
      ((declarations stop tokens).1,
        (declarations stop tokens).2.map (Complaint.map (Token.endMoved move))) := by
  have hothers := Token.keepsOthers_endMoved move
  have hprogram := hothers.map_program _ (declarations_wellFormed stop tokens)
  have hmap := declarations_map (Token.keeps_endMoved move) stop tokens
  rwa [hothers.map_eq h, ← Statement.mapAll_eq_map, hprogram] at hmap

/-- The diagnostic is about the end of the input. -/
def Diagnostic.isAtEnd : Diagnostic → Bool
  | malformed _ _ .endOfInput _ => true
  | _ => false

/-- The diagnostic, further down by a number of lines if it is about the end of the input. -/
def Diagnostic.endBelow (lines : Nat) (d : Diagnostic) : Diagnostic :=
  if d.isAtEnd then d.below lines else d

/-- Of the place of the end, only the line is told. -/
lemma Complaint.diagnostic_endMoved {move : Position → Position} {lines : Nat}
    (hmove : ∀ p, (move p).line = p.line + lines) (c : Complaint) :
    (c.map (Token.endMoved move)).diagnostic = c.diagnostic.endBelow lines := by
  rw [diagnostic, diagnostic, map, Token.endMoved]
  by_cases hend : c.token.isEnd
  · have hmoved : (c.token.moved move).isEnd := hend
    rw [if_pos hend, Diagnostic.atToken, Diagnostic.atToken, if_pos hend, if_pos hmoved,
      Token.moved, hmove]
    rfl
  · rw [if_neg hend, Diagnostic.atToken, if_neg hend]
    rfl

/-! ### Where sources end -/

/-- The last character of the source belongs to a token. -/
def EndsInToken (source : String) : Prop :=
  ∃ segment ∈ (Segment.cut source.toList).getLast?, segment.rule.kind?.isSome

instance (source : String) : Decidable (EndsInToken source) :=
  inferInstanceAs (Decidable (∃ _ ∈ _, _))

/-- The end of such a source is counted on from its last token over the lexeme. -/
lemma exists_scan_of_endsInToken {source : String} (h : EndsInToken source) :
    ∃ tokens last, (scan source).tokens =
      tokens ++ [last, .endOfInput (last.lexeme.toList.foldl Position.past last.position)] := by
  obtain ⟨segment, hlast, hkind⟩ := h
  obtain ⟨segments, hcut⟩ := List.getLast?_eq_some_iff.1 hlast
  obtain ⟨rule, text⟩ := segment
  cases rule with
  | token kind =>
      rw [Scan.scan_eq_counted, hcut, Scan.counted_append]
      refine ⟨(Scan.counted [] segments).tokens.dropLast,
        .ofText kind text (.behind (segments.flatMap (·.text))), ?_⟩
      simp [Scan.append, Scan.counted, Scan.prepend, Token.ofText, Position.behind_append]
  | blank | newline | lineComment | blockComment | error => cases hkind

lemma Token.exists_endBehind (tokens : List Token) : ∃ p, endBehind tokens = .endOfInput p := by
  rw [endBehind]
  split <;> exact ⟨_, rfl⟩

/-- Tokens with an end marker are read like the tokens alone, and what is reported about the
end is as many lines below as the marker is below the last token. -/
theorem Parse.ofTokens_concat_endOfInput {tokens : List Token}
    (h : ∀ token ∈ tokens, ¬ token.isEnd) {position : Position} {lines : Nat}
    (hline : position.line = (Token.endBehind tokens).position.line + lines) :
    (ofTokens (tokens ++ [.endOfInput position])).program = (ofTokens tokens).program ∧
      (ofTokens (tokens ++ [.endOfInput position])).report =
        (ofTokens tokens).report.map (Diagnostic.endBelow lines) := by
  let move : Position → Position := fun p => ⟨p.line + lines, position.column⟩
  have hstop : (Token.endBehind tokens).endMoved move = .endOfInput position := by
    obtain ⟨p, hp⟩ := Token.exists_endBehind tokens
    have hmove : move p = position := by
      rw [hp] at hline
      exact congrArg₂ Position.mk hline.symm rfl
    rw [hp, ← hmove]
    rfl
  have hfind : tokens.find? (·.isEnd) = none := List.find?_eq_none.2 h
  have hbody : tokens.takeWhile (!·.isEnd) = tokens := by
    simpa using takeWhile_append_of_forall h []
  have halone : ofTokens tokens =
      ⟨(Grammar.declarations (.endBehind tokens) tokens).1,
        (Grammar.declarations (.endBehind tokens) tokens).2⟩ := by
    rw [ofTokens, hfind, hbody, Option.getD_none]
  have hmarked : ofTokens (tokens ++ [.endOfInput position]) =
      ⟨(Grammar.declarations (.endOfInput position) tokens).1,
        (Grammar.declarations (.endOfInput position) tokens).2⟩ := by
    rw [ofTokens, List.find?_append, hfind, takeWhile_append_of_forall h]
    simp [Token.isEnd, Token.endOfInput]
  rw [hmarked, halone, ← hstop, Grammar.declarations_endMoved move _ h]
  refine ⟨rfl, ?_⟩
  rw [report, report, List.map_map, List.map_map]
  exact List.map_congr_left fun c _ => Complaint.diagnostic_endMoved (fun _ => rfl) c

/-- Moving the end changes a report exactly if there is a complaint about the end. -/
lemma Diagnostic.map_endBelow_eq_iff {report : Report} {lines : Nat} :
    report.map (endBelow lines) = report ↔ lines = 0 ∨ ∀ d ∈ report, d.isAtEnd = false := by
  have hone : ∀ d : Diagnostic, d.endBelow lines = d ↔ lines = 0 ∨ d.isAtEnd = false := by
    intro d
    rw [endBelow]
    cases d with
    | malformed line column location message => cases location <;> simp [isAtEnd, below]
    | fault position message => simp [isAtEnd]
  constructor
  · intro h
    by_contra hnot
    rw [not_or, not_forall] at hnot
    obtain ⟨hlines, d, hd⟩ := hnot
    obtain ⟨hmem, hd⟩ := Classical.not_imp.1 hd
    have hsame := List.map_inj_left.1 (h.trans (List.map_id report).symm) d hmem
    exact ((hone d).1 hsame).elim hlines hd
  · intro h
    conv_rhs => rw [← List.map_id report]
    refine List.map_congr_left ?_
    intro d hd
    exact (hone d).2 (h.imp_right fun hall => hall d hd)

/-- **Tokens without an end marker.** Take a source with nothing behind its last token, and
its tokens without the end marker. They are read as the same program. The end that is
assumed behind them is the end of the source exactly if the last lexeme is on one line.
Otherwise complaints about the end are reported as many lines above it as the lexeme has
line feeds. -/
theorem ofTokens_without_marker {source : String} (h : EndsInToken source) :
    let tokens := (scan source).tokens.dropLast
    ∃ last stop, tokens.getLast? = some last ∧ (scan source).tokens = tokens ++ [stop] ∧
      (Token.endBehind tokens = stop ↔ '\n' ∉ last.lexeme.toList) ∧
      (Parse.ofTokens tokens).program = (Parse.ofTokens (scan source).tokens).program ∧
      (Parse.ofTokens (scan source).tokens).report =
        (Parse.ofTokens tokens).report.map
          (Diagnostic.endBelow (last.lexeme.toList.count '\n')) ∧
      ((Parse.ofTokens tokens).report = (Parse.ofTokens (scan source).tokens).report ↔
        '\n' ∉ last.lexeme.toList ∨
          ∀ d ∈ (Parse.ofTokens tokens).report, d.isAtEnd = false) := by
  intro tokens
  obtain ⟨before, last, hscan⟩ := exists_scan_of_endsInToken h
  obtain ⟨others, position, hmarker, hend⟩ := exists_tokens_scan source
  have htokens : tokens = before ++ [last] := by
    simp only [tokens, hscan, List.dropLast_append_cons, List.dropLast_cons_cons,
      List.dropLast_singleton]
  have hothers : tokens = others := by simp only [tokens, hmarker, List.dropLast_concat]
  let place := last.lexeme.toList.foldl Position.past last.position
  have hfull : (scan source).tokens = tokens ++ [.endOfInput place] := by
    rw [htokens, hscan, List.append_assoc]
    rfl
  have hbehind : Token.endBehind tokens =
      .endOfInput ⟨last.position.line, last.position.column + last.lexeme.toList.length⟩ := by
    rw [htokens, Token.endBehind, List.getLast?_concat, String.length_toList]
  have hline : place.line =
      (Token.endBehind tokens).position.line + last.lexeme.toList.count '\n' := by
    rw [hbehind]
    exact Position.line_foldl_past last.position last.lexeme.toList
  have hfeeds : last.lexeme.toList.count '\n' = 0 ↔ '\n' ∉ last.lexeme.toList :=
    List.count_eq_zero
  have hmarked := Parse.ofTokens_concat_endOfInput (hothers ▸ hend) hline
  rw [← hfull] at hmarked
  refine ⟨last, .endOfInput place, by rw [htokens, List.getLast?_concat], hfull, ?_,
    hmarked.1.symm, hmarked.2, ?_⟩
  · constructor
    · intro hsame
      rw [hsame] at hline
      exact hfeeds.1 (by simpa [Token.endOfInput] using hline)
    · intro hnone
      rw [hbehind]
      exact congrArg Token.endOfInput (Position.foldl_past_of_notMem last.position hnone).symm
  · rw [eq_comm, hmarked.2, Diagnostic.map_endBelow_eq_iff, hfeeds]

/-- Behind a string on one line, the end is assumed where it is, also if its letters are
not one byte long. -/
theorem ofTokens_without_marker_accented :
    let tokens := (scan "x = \"é\"").tokens.dropLast
    EndsInToken "x = \"é\"" ∧
      (scan "x = \"é\"").tokens = tokens ++ [Token.endBehind tokens] ∧
      (Parse.ofTokens tokens).report =
        [.malformed 1 none .endOfInput "Expect ';' after expression."] ∧
      (Parse.ofTokens (scan "x = \"é\"").tokens).report = (Parse.ofTokens tokens).report := by
  intro tokens
  have hends : EndsInToken "x = \"é\"" := by decide +kernel
  have hlexeme : ∀ last ∈ tokens.getLast?, '\n' ∉ last.lexeme.toList := by decide +kernel
  obtain ⟨last, stop, hlast, hscan, hplace, -, -, hreport⟩ := ofTokens_without_marker hends
  have hnone := hlexeme last hlast
  refine ⟨hends, ?_, by decide +kernel, (hreport.2 (.inl hnone)).symm⟩
  rw [hplace.2 hnone]
  exact hscan

/-- Behind a string over two lines, the end is assumed on the first of them, and reported
there. -/
theorem ofTokens_without_marker_two_lines :
    let tokens := (scan "print \"a\nb\"").tokens.dropLast
    EndsInToken "print \"a\nb\"" ∧
      Token.endBehind tokens = .endOfInput ⟨1, 12⟩ ∧
      (scan "print \"a\nb\"").tokens = tokens ++ [.endOfInput ⟨2, 3⟩] ∧
      (Parse.ofTokens tokens).report =
        [.malformed 1 none .endOfInput "Expect ';' after value."] ∧
      (Parse.ofTokens (scan "print \"a\nb\"").tokens).report =
        [.malformed 2 none .endOfInput "Expect ';' after value."] := by
  decide +kernel

end Scriptlet
