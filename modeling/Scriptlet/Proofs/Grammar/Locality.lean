import Scriptlet.Grammar.Program
import Scriptlet.Proofs.Grammar.Lookahead
import Scriptlet.Token.Scan

/-!
Declarations are read independently of what stands behind them.

* **Lookahead.** A statement ends with a semicolon or a brace, so it is enough
  that it does not get stuck at the end of the tokens (`statement_append`).
* **Recovery.** Reading goes on behind the next semicolon at the latest, so it
  never leaves tokens that end with one (`resume_append_of_terminated`).
* **Semicolons.** No expression takes a semicolon, so a declaration in tokens
  that end with one never gets stuck at their end (`statement_of_terminated`).
* `ofTokens_append`: so a program that is read without a report, or tokens
  without an opening brace that end with a semicolon, are read as if nothing
  stood behind them.
-/

namespace Scriptlet

namespace Grammar

/-! ### Recovery -/

/-- The tokens are empty or end with a semicolon. -/
def Terminated (tokens : List Token) : Prop :=
  ∀ last ∈ tokens.getLast?, last.isSymbol .semicolon

instance (tokens : List Token) : Decidable (Terminated tokens) :=
  inferInstanceAs (Decidable (∀ last ∈ tokens.getLast?, last.isSymbol .semicolon))

lemma Terminated.of_suffix {tokens rest : List Token} (h : Terminated tokens)
    (hrest : rest <:+ tokens) : Terminated rest := by
  intro last hlast
  obtain ⟨used, rfl⟩ := hrest
  refine h last ?_
  rw [Option.mem_def] at hlast ⊢
  rw [List.getLast?_append, hlast]
  rfl

lemma Terminated.ne_nil_of_cons {token : Token} {rest : List Token}
    (h : Terminated (token :: rest)) (htoken : ¬ token.isSymbol .semicolon) : rest ≠ [] := by
  rintro rfl
  exact htoken (h token rfl)

/-- Tokens that end with a semicolon have one left behind an expression. -/
lemma Terminated.rest_ne_nil {α : Type} {tokens : List Token} {e : Ending α}
    (h : Terminated tokens) (hne : tokens ≠ []) (he : TakesFrom tokens e) : e.rest ≠ [] := by
  intro hrest
  obtain ⟨used, hused, hin⟩ := he
  rw [hrest, List.append_nil] at hused
  subst hused
  have hlast := h _ (List.getLast?_eq_some_getLast hne)
  have := hin _ (List.getLast_mem hne)
  rw [show (tokens.getLast hne).kind = .symbol .semicolon by
    simpa [Token.isSymbol] using hlast] at this
  cases this

lemma boundary_suffix (passed : Token) (tokens : List Token) :
    boundary passed tokens <:+ tokens := by
  induction tokens generalizing passed with
  | nil => exact List.suffix_rfl
  | cons token rest ih =>
      rw [boundary]
      split
      · exact List.suffix_rfl
      · exact (ih token).trans (List.suffix_cons token rest)

lemma resume_suffix (tokens : List Token) : resume tokens <:+ tokens := by
  cases tokens with
  | nil => exact List.suffix_rfl
  | cons token rest => exact (boundary_suffix token rest).trans (List.suffix_cons token rest)

/-- Recovery that finds where to go on does so whatever follows. -/
lemma boundary_append {passed : Token} {tokens : List Token} (h : boundary passed tokens ≠ [])
    (more : List Token) : boundary passed (tokens ++ more) = boundary passed tokens ++ more := by
  induction tokens generalizing passed with
  | nil => exact absurd rfl h
  | cons token rest ih =>
      rw [boundary] at h
      rw [List.cons_append, boundary, boundary]
      split
      · rfl
      · rename_i hgo
        rw [if_neg hgo] at h
        exact ih h

lemma resume_append {tokens : List Token} (h : resume tokens ≠ []) (more : List Token) :
    resume (tokens ++ more) = resume tokens ++ more := by
  cases tokens with
  | nil => exact absurd rfl h
  | cons token rest => exact boundary_append h more

/-- Recovery never passes the last semicolon. -/
lemma boundary_append_of_terminated {passed : Token} {tokens : List Token}
    (h : Terminated (passed :: tokens)) (more : List Token) :
    boundary passed (tokens ++ more) = boundary passed tokens ++ more := by
  induction tokens generalizing passed with
  | nil =>
      have hpassed : passed.isSymbol .semicolon := h passed rfl
      cases more with
      | nil => rfl
      | cons token more => simp [boundary, hpassed]
  | cons token rest ih =>
      rw [List.cons_append, boundary, boundary]
      split
      · rfl
      · exact ih (h.of_suffix (List.suffix_cons passed _))

lemma resume_append_of_terminated {tokens : List Token} (h : Terminated tokens)
    (hne : tokens ≠ []) (more : List Token) :
    resume (tokens ++ more) = resume tokens ++ more := by
  obtain ⟨token, rest, rfl⟩ := List.exists_cons_of_ne_nil hne
  exact boundary_append_of_terminated h more

/-! ### Lookahead of statements -/

lemma initializer_append {stop : Token} (stop' : Token) {name : Token} {tokens : List Token}
    (h : (initializer stop name tokens).ending.rest ≠ []) (more : List Token) :
    (initializer stop' name (tokens ++ more)).ending =
      (initializer stop name tokens).ending.extend more := by
  rw [initializer_ending] at h
  rw [initializer_ending, initializer_ending]
  cases tokens with
  | nil => exact absurd rfl h
  | cons equals rest =>
      dsimp only [List.cons_append] at h ⊢
      by_cases hequals : equals.isSymbol .equal
      · rw [if_pos hequals] at h
        rw [if_pos hequals, if_pos hequals]
        exact Ending.extend_bind_read (fun hrest => expression_append stop' hrest more) h
      · rw [if_neg hequals, if_neg hequals]
        rfl

lemma variableDeclaration_append {stop : Token} (stop' : Token) {tokens : List Token}
    (h : (variableDeclaration stop tokens).ending.Settled) (more : List Token) :
    (variableDeclaration stop' (tokens ++ more)).ending =
      (variableDeclaration stop tokens).ending.extend more := by
  rw [variableDeclaration_ending] at h
  rw [variableDeclaration_ending, variableDeclaration_ending]
  cases tokens with
  | nil => exact absurd rfl h
  | cons name rest =>
      dsimp only [List.cons_append] at h ⊢
      by_cases hname : name.kind = .identifier
      · rw [if_pos hname] at h
        rw [if_pos hname, if_pos hname]
        exact Ending.extend_bind_close (fun hrest => initializer_append stop' hrest more) h
      · rw [if_neg hname, if_neg hname]
        rfl

/-- What is read or left out at the start of the tokens is the same with more
tokens behind them. -/
structure Unaffected (stop stop' token : Token) (rest more : List Token) : Prop where
  statement? : (declaration stop' token (rest ++ more)).statement? =
    (declaration stop token rest).statement?
  complaints : (declaration stop' token (rest ++ more)).complaints =
    (declaration stop token rest).complaints
  rest : (declaration stop' token (rest ++ more)).rest = (declaration stop token rest).rest ++ more

/-- A declaration is unaffected by what follows if its reading and the recovery
from it are. -/
lemma unaffected_of_append {stop stop' token : Token} {rest more : List Token}
    (h : (statement stop' token (rest ++ more)).ending =
      (statement stop token rest).ending.extend more)
    (hresume : ∀ cause notes rest', (statement stop token rest).ending = .stuck cause notes rest' →
      resume (rest' ++ more) = resume rest' ++ more) :
    Unaffected stop stop' token rest more := by
  cases hs : (statement stop token rest).ending with
  | read result notes rest' =>
      rw [hs] at h
      obtain ⟨h1, h2, h3⟩ := declaration_of_read hs
      obtain ⟨h1', h2', h3'⟩ := declaration_of_read h
      exact ⟨by rw [h1, h1'], by rw [h2, h2'], by rw [h3, h3']⟩
  | stuck cause notes rest' =>
      rw [hs] at h
      obtain ⟨h1, h2, h3⟩ := declaration_of_stuck hs
      obtain ⟨h1', h2', h3'⟩ := declaration_of_stuck h
      exact ⟨by rw [h1, h1'], by rw [h2, h2'], by rw [h3, h3', hresume cause notes rest' hs]⟩

/-- A statement or block that does not get stuck at the end of its tokens ends
in the same way whatever follows. -/
theorem statement_rules_append (stop stop' : Token) (more : List Token) :
    (∀ token rest, (statement stop token rest).ending.Settled →
      (statement stop' token (rest ++ more)).ending =
        (statement stop token rest).ending.extend more) ∧
    (∀ tokens, (block stop tokens).ending.Settled →
      (block stop' (tokens ++ more)).ending = (block stop tokens).ending.extend more) := by
  refine statement_induction stop ?plain ?brace ?block_nil ?block_end ?block_step
  case plain =>
      intro token rest hbrace h
      rw [statement_ending] at h
      rw [statement_ending, statement_ending]
      split
      · simp_all only
        exact variableDeclaration_append stop' h more
      · simp_all only
        exact Ending.extend_bind_close (fun hrest => expression_append stop' hrest more) h
      · exact absurd ‹_› hbrace
      · simp_all only
        exact Ending.extend_bind_close (fun hrest => expression_append stop' hrest more) h
  case brace =>
      intro token rest hbrace ih h
      simp only [statement_ending, hbrace] at h ⊢
      rw [Ending.settled_bind_read] at h
      rw [ih h]
      cases (block stop rest).ending <;> rfl
  case block_nil =>
      intro h
      rw [block_nil] at h
      exact absurd rfl h
  case block_end =>
      intro token rest hbrace _
      rw [List.cons_append, block_of_brace stop hbrace, block_of_brace stop' hbrace]
      rfl
  case block_step =>
      intro token rest hbrace ih ih' h
      rw [block_of_not_brace stop hbrace, Ending.settled_after, Ending.settled_bind_read] at h
      -- the block goes on behind the declaration, so that is not where the tokens end
      have hne : (declaration stop token rest).rest ≠ [] := by
        intro hnil
        rw [hnil, block_nil] at h
        exact h rfl
      have hunaffected : Unaffected stop stop' token rest more := by
        cases hs : (statement stop token rest).ending with
        | read result notes rest' =>
            refine unaffected_of_append (ih (by rw [hs]; trivial)) ?_
            simp [hs]
        | stuck cause notes rest' =>
            rw [(declaration_of_stuck hs).2.2] at hne
            have hsettled : (statement stop token rest).ending.Settled := by
              rw [hs]
              rintro rfl
              exact hne rfl
            refine unaffected_of_append (ih hsettled) ?_
            intro cause' notes' rest'' hs'
            cases hs.symm.trans hs'
            exact resume_append hne more
      rw [List.cons_append, block_of_not_brace stop hbrace, block_of_not_brace stop' hbrace,
        hunaffected.statement?, hunaffected.complaints, hunaffected.rest, ih' h, Ending.extend_after]
      cases (block stop (declaration stop token rest).rest).ending <;> rfl

/-- **Lookahead of statements.** -/
lemma statement_append {stop : Token} (stop' : Token) {token : Token} {rest : List Token}
    (h : (statement stop token rest).ending.Settled) (more : List Token) :
    (statement stop' token (rest ++ more)).ending =
      (statement stop token rest).ending.extend more :=
  (statement_rules_append stop stop' more).1 token rest h

/-! ### Declarations before a semicolon -/

lemma TakesFrom.suffix {α : Type} {tokens : List Token} {e : Ending α} (h : TakesFrom tokens e) :
    e.rest <:+ tokens := by
  obtain ⟨used, rfl, -⟩ := h
  exact List.suffix_append used e.rest

section Terminated

variable (stop : Token)

/-- An expression that a symbol has to follow is not stuck at the end of tokens
that end with a semicolon. -/
lemma expression_of_terminated {symbol : Symbol} {missing : Expectation} {f : Expr → Statement}
    {tokens : List Token} (h : Terminated tokens) (hne : tokens ≠ []) :
    ((expression stop tokens).ending.bind fun value =>
        Ending.close stop symbol missing (f value)).Settled ∧
      ((expression stop tokens).ending.bind fun value =>
        Ending.close stop symbol missing (f value)).rest <:+ tokens := by
  have htakes := expression_takes stop tokens
  exact ⟨Ending.settled_bind_close (h.rest_ne_nil hne htakes),
    Ending.rest_bind_close.trans htakes.suffix⟩

lemma initializer_takes (name : Token) (tokens : List Token) :
    TakesFrom tokens (initializer stop name tokens).ending := by
  rw [initializer_ending]
  cases tokens with
  | nil => exact .refl rfl
  | cons equals rest =>
      dsimp only
      split
      case isTrue hequals =>
          have hkind : equals.kind = .symbol .equal := by simpa [Token.isSymbol] using hequals
          refine .cons (by rw [hkind]; rfl) ?_
          exact (expression_takes stop rest).bind fun _ _ _ _ => .refl rfl
      case isFalse => exact .refl rfl

lemma initializer_of_terminated {name : Token} {tokens : List Token} (h : Terminated tokens)
    (hne : tokens ≠ []) :
    (initializer stop name tokens).ending.rest ≠ [] ∧
      (initializer stop name tokens).ending.rest <:+ tokens := by
  have htakes := initializer_takes stop name tokens
  exact ⟨h.rest_ne_nil hne htakes, htakes.suffix⟩

lemma variableDeclaration_of_terminated {tokens : List Token} (h : Terminated tokens)
    (hne : tokens ≠ []) :
    (variableDeclaration stop tokens).ending.Settled ∧
      (variableDeclaration stop tokens).ending.rest <:+ tokens := by
  obtain ⟨name, rest, rfl⟩ := List.exists_cons_of_ne_nil hne
  rw [variableDeclaration_ending]
  dsimp only
  split
  case isFalse => exact ⟨List.cons_ne_nil name rest, List.suffix_rfl⟩
  case isTrue hname =>
      have hrest : rest ≠ [] := h.ne_nil_of_cons (by simp [Token.isSymbol, hname])
      have hsuffix := List.suffix_cons name rest
      obtain ⟨hleft, hleft'⟩ := initializer_of_terminated stop (h.of_suffix hsuffix) hrest
      exact ⟨Ending.settled_bind_close hleft,
        Ending.rest_bind_close.trans (hleft'.trans hsuffix)⟩

/-- A declaration without a block never gets stuck at the end of tokens that
end with a semicolon, and leaves some of these tokens. -/
lemma statement_of_terminated {token : Token} {rest : List Token}
    (hbrace : token.kind ≠ .symbol .leftBrace) (h : Terminated (token :: rest)) :
    (statement stop token rest).ending.Settled ∧
      (statement stop token rest).ending.rest <:+ token :: rest := by
  have hsuffix := List.suffix_cons token rest
  rw [statement_ending]
  split
  · rename_i hkind
    have hrest : rest ≠ [] := h.ne_nil_of_cons (by simp [Token.isSymbol, hkind])
    refine (variableDeclaration_of_terminated stop (h.of_suffix hsuffix) hrest).imp_right ?_
    exact fun hleft => hleft.trans hsuffix
  · rename_i hkind
    have hrest : rest ≠ [] := h.ne_nil_of_cons (by simp [Token.isSymbol, hkind])
    refine (expression_of_terminated stop (h.of_suffix hsuffix) hrest).imp_right ?_
    exact fun hleft => hleft.trans hsuffix
  · exact absurd ‹_› hbrace
  · exact expression_of_terminated stop h (List.cons_ne_nil token rest)

/-- So it is unaffected by what stands behind them, as is the recovery from it. -/
lemma unaffected_of_terminated (stop' : Token) {token : Token} {rest : List Token}
    (hbrace : token.kind ≠ .symbol .leftBrace) (h : Terminated (token :: rest))
    (more : List Token) :
    Unaffected stop stop' token rest more ∧
      (declaration stop token rest).rest <:+ token :: rest := by
  obtain ⟨hsettled, hsuffix⟩ := statement_of_terminated stop hbrace h
  refine ⟨unaffected_of_append (statement_append stop' hsettled more) ?_, ?_⟩
  · intro cause notes rest' hs
    rw [hs] at hsettled hsuffix
    exact resume_append_of_terminated (h.of_suffix hsuffix) hsettled more
  · cases hs : (statement stop token rest).ending with
    | read result notes rest' =>
        rw [hs] at hsuffix
        rw [(declaration_of_read hs).2.2]
        exact hsuffix
    | stuck cause notes rest' =>
        rw [hs] at hsuffix
        rw [(declaration_of_stuck hs).2.2]
        exact (resume_suffix rest').trans hsuffix

end Terminated

/-! ### Programs -/

section Programs

variable {stop stop' : Token} {more : List Token} {P : List Token → Prop}

/-- Declarations that are each unaffected by what follows are read as if nothing
followed, and then what follows is read. -/
theorem declarations_append
    (step : ∀ token rest, P (token :: rest) →
      Unaffected stop stop' token rest more ∧ P (declaration stop token rest).rest)
    {tokens : List Token} (h : P tokens) :
    declarations stop' (tokens ++ more) =
      ((declarations stop tokens).1 ++ (declarations stop' more).1,
        (declarations stop tokens).2 ++ (declarations stop' more).2) := by
  induction tokens using declarations_induction stop with
  | nil => simp
  | cons token rest ih =>
      obtain ⟨hunaffected, hrest⟩ := step token rest h
      rw [List.cons_append, declarations_cons, declarations_cons, hunaffected.statement?,
        hunaffected.complaints, hunaffected.rest, ih hrest, List.append_assoc, List.append_assoc]

/-- In a block they are read up to its closing brace. -/
theorem block_append {right : Token} (hright : right.isSymbol .rightBrace)
    (step : ∀ token rest, P (token :: rest) → ¬ token.isSymbol .rightBrace ∧
      Unaffected stop stop' token rest (right :: more) ∧ P (declaration stop token rest).rest)
    {tokens : List Token} (h : P tokens) :
    (block stop' (tokens ++ right :: more)).ending =
      .read (declarations stop tokens).1 (declarations stop tokens).2 more := by
  induction tokens using declarations_induction stop with
  | nil =>
      rw [List.nil_append, block_of_brace stop' hright, declarations_nil]
  | cons token rest ih =>
      obtain ⟨hbrace, hunaffected, hrest⟩ := step token rest h
      rw [List.cons_append, block_of_not_brace stop' hbrace, declarations_cons,
        hunaffected.statement?, hunaffected.complaints, hunaffected.rest, ih hrest]
      simp [Ending.after]

/-- A program without complaints is read as if nothing followed. -/
lemma declarations_append_of_complaints {tokens : List Token}
    (h : (declarations stop tokens).2 = []) :
    declarations stop' (tokens ++ more) =
      ((declarations stop tokens).1 ++ (declarations stop' more).1,
        (declarations stop tokens).2 ++ (declarations stop' more).2) := by
  refine declarations_append (P := fun tokens => (declarations stop tokens).2 = []) ?_ h
  intro token rest h
  rw [declarations_cons] at h
  obtain ⟨hfirst, hlater⟩ := List.append_eq_nil_iff.1 h
  obtain ⟨result, hread, -⟩ := declaration_of_complaints hfirst
  refine ⟨unaffected_of_append (statement_append stop' ?_ more) ?_, hlater⟩
  · rw [hread]
    trivial
  · simp [hread]

/-- Tokens without an opening brace that end with a semicolon are read as if
nothing followed. -/
lemma declarations_append_of_terminated {tokens : List Token} (h : Terminated tokens)
    (hbrace : ∀ token ∈ tokens, ¬ token.isSymbol .leftBrace) :
    declarations stop' (tokens ++ more) =
      ((declarations stop tokens).1 ++ (declarations stop' more).1,
        (declarations stop tokens).2 ++ (declarations stop' more).2) := by
  refine declarations_append
    (P := fun tokens => Terminated tokens ∧ ∀ token ∈ tokens, ¬ token.isSymbol .leftBrace) ?_
    ⟨h, hbrace⟩
  rintro token rest ⟨h, hbrace⟩
  have hkind : token.kind ≠ .symbol .leftBrace := by
    simpa [Token.isSymbol] using hbrace token List.mem_cons_self
  obtain ⟨hunaffected, hsuffix⟩ := unaffected_of_terminated stop stop' hkind h more
  exact ⟨hunaffected, h.of_suffix hsuffix, fun t ht => hbrace t (hsuffix.subset ht)⟩

/-- In a block, the same holds of tokens without braces. -/
lemma block_append_of_terminated {tokens : List Token} {right : Token} (h : Terminated tokens)
    (hleft : ∀ token ∈ tokens, ¬ token.isSymbol .leftBrace)
    (hright : ∀ token ∈ tokens, ¬ token.isSymbol .rightBrace)
    (hclose : right.isSymbol .rightBrace) :
    (block stop' (tokens ++ right :: more)).ending =
      .read (declarations stop tokens).1 (declarations stop tokens).2 more := by
  refine block_append (P := fun tokens => Terminated tokens ∧
    (∀ token ∈ tokens, ¬ token.isSymbol .leftBrace) ∧
    ∀ token ∈ tokens, ¬ token.isSymbol .rightBrace) hclose ?_ ⟨h, hleft, hright⟩
  rintro token rest ⟨h, hleft, hright⟩
  have hkind : token.kind ≠ .symbol .leftBrace := by
    simpa [Token.isSymbol] using hleft token List.mem_cons_self
  obtain ⟨hunaffected, hsuffix⟩ := unaffected_of_terminated stop stop' hkind h (right :: more)
  exact ⟨hright token List.mem_cons_self, hunaffected, h.of_suffix hsuffix,
    fun t ht => hleft t (hsuffix.subset ht), fun t ht => hright t (hsuffix.subset ht)⟩

end Programs

end Grammar

/-! ### End markers -/

namespace Parse

variable {tokens : List Token}

lemma takeWhile_append_of_forall (h : ∀ token ∈ tokens, ¬ token.isEnd) (more : List Token) :
    (tokens ++ more).takeWhile (!·.isEnd) = tokens ++ more.takeWhile (!·.isEnd) :=
  List.takeWhile_append_of_pos (by simpa using h)

/-- All tokens are read if there is no end marker among them. -/
lemma ofTokens_of_forall (h : ∀ token ∈ tokens, ¬ token.isEnd) :
    ∃ stop, ofTokens tokens =
      ⟨(Grammar.declarations stop tokens).1, (Grammar.declarations stop tokens).2⟩ := by
  have hbody : tokens.takeWhile (!·.isEnd) = tokens := by
    simpa using takeWhile_append_of_forall h []
  refine ⟨(tokens.find? (·.isEnd)).getD (.endBehind tokens), ?_⟩
  rw [ofTokens, hbody]

lemma endBehind_append {more : List Token} (h : more ≠ []) :
    Token.endBehind (tokens ++ more) = Token.endBehind more := by
  rw [Token.endBehind, Token.endBehind, List.getLast?_append, List.getLast?_eq_some_getLast h]
  rfl

/-- The end of the input is the same for tokens and for those behind them. -/
lemma ofTokens_append_of_forall (h : ∀ token ∈ tokens, ¬ token.isEnd) (more : List Token) :
    ∃ stop,
      ofTokens (tokens ++ more) =
        ⟨(Grammar.declarations stop (tokens ++ more.takeWhile (!·.isEnd))).1,
          (Grammar.declarations stop (tokens ++ more.takeWhile (!·.isEnd))).2⟩ ∧
      ofTokens more =
        ⟨(Grammar.declarations stop (more.takeWhile (!·.isEnd))).1,
          (Grammar.declarations stop (more.takeWhile (!·.isEnd))).2⟩ := by
  refine ⟨((tokens ++ more).find? (·.isEnd)).getD (.endBehind (tokens ++ more)), ?_, ?_⟩
  · rw [ofTokens, takeWhile_append_of_forall h]
  · by_cases hmore : more = []
    · subst hmore
      simp [ofTokens]
    · have hfind : tokens.find? (·.isEnd) = none := List.find?_eq_none.2 h
      rw [ofTokens, List.find?_append, hfind, Option.none_or, endBehind_append hmore]

end Parse

open Grammar in
/-- **Recovery is local.** Tokens that are read without a report, and tokens
without an opening brace that are empty or end with a semicolon, however
malformed they are, are read as if nothing stood behind them. The latter may
also stand in a block, if they have no closing brace, either. -/
theorem ofTokens_append (tokens : List Token) (hend : ∀ token ∈ tokens, ¬ token.isEnd) :
    ((Parse.ofTokens tokens).report = [] ∨
        (∀ token ∈ tokens, ¬ token.isSymbol .leftBrace) ∧ Terminated tokens →
      ∀ more,
        (Parse.ofTokens (tokens ++ more)).program =
          (Parse.ofTokens tokens).program ++ (Parse.ofTokens more).program ∧
        (Parse.ofTokens (tokens ++ more)).report =
          (Parse.ofTokens tokens).report ++ (Parse.ofTokens more).report) ∧
    ((∀ token ∈ tokens, ¬ token.isSymbol .leftBrace ∧ ¬ token.isSymbol .rightBrace) ∧
        Terminated tokens →
      ∀ left right more, left.isSymbol .leftBrace → right.isSymbol .rightBrace →
        (Parse.ofTokens ([left] ++ tokens ++ [right] ++ more)).program =
          .block (Parse.ofTokens tokens).program :: (Parse.ofTokens more).program ∧
        (Parse.ofTokens ([left] ++ tokens ++ [right] ++ more)).report =
          (Parse.ofTokens tokens).report ++ (Parse.ofTokens more).report) := by
  obtain ⟨stop, htokens⟩ := Parse.ofTokens_of_forall hend
  constructor
  · intro h more
    obtain ⟨stop', hall, hmore⟩ := Parse.ofTokens_append_of_forall hend more
    have hsplit : declarations stop' (tokens ++ more.takeWhile (!·.isEnd)) =
        ((declarations stop tokens).1 ++ (declarations stop' (more.takeWhile (!·.isEnd))).1,
          (declarations stop tokens).2 ++ (declarations stop' (more.takeWhile (!·.isEnd))).2) := by
      rcases h with hreport | ⟨hbrace, hterminated⟩
      · refine declarations_append_of_complaints ?_
        simpa [htokens, Parse.report] using hreport
      · exact declarations_append_of_terminated hterminated hbrace
    rw [hall, hmore, htokens, hsplit]
    exact ⟨rfl, List.map_append⟩
  · rintro ⟨hbraces, hterminated⟩ left right more hleft hright
    have hkind : left.kind = .symbol .leftBrace := by simpa [Token.isSymbol] using hleft
    have hkind' : right.kind = .symbol .rightBrace := by simpa [Token.isSymbol] using hright
    have hend' : ∀ token ∈ [left] ++ tokens ++ [right], ¬ token.isEnd := by
      simp only [List.forall_mem_append, List.forall_mem_singleton]
      exact ⟨⟨by simp [Token.isEnd, hkind], hend⟩, by simp [Token.isEnd, hkind']⟩
    obtain ⟨stop', hall, hmore⟩ := Parse.ofTokens_append_of_forall hend' more
    have hbody : (block stop' (tokens ++ right :: more.takeWhile (!·.isEnd))).ending =
        .read (declarations stop tokens).1 (declarations stop tokens).2
          (more.takeWhile (!·.isEnd)) :=
      block_append_of_terminated hterminated (fun t ht => (hbraces t ht).1)
        (fun t ht => (hbraces t ht).2) hright
    have hblock : (statement stop' left (tokens ++ right :: more.takeWhile (!·.isEnd))).ending =
        .read (.block (declarations stop tokens).1) (declarations stop tokens).2
          (more.takeWhile (!·.isEnd)) := by
      simp [statement_ending, hkind, hbody, Ending.after]
    obtain ⟨hresult, hcomplaints, hrest⟩ := declaration_of_read hblock
    have hsplit : declarations stop' ([left] ++ tokens ++ [right] ++ more.takeWhile (!·.isEnd)) =
        (.block (declarations stop tokens).1 :: (declarations stop' (more.takeWhile (!·.isEnd))).1,
          (declarations stop tokens).2 ++ (declarations stop' (more.takeWhile (!·.isEnd))).2) := by
      rw [show [left] ++ tokens ++ [right] ++ more.takeWhile (!·.isEnd) =
          left :: (tokens ++ right :: more.takeWhile (!·.isEnd)) by simp,
        declarations_cons, hresult, hcomplaints, hrest]
      rfl
    rw [hall, hmore, htokens, hsplit]
    exact ⟨rfl, List.map_append⟩

open Grammar in
/-- A stray parenthesis is reported, and the statement behind it is read as it
would be by itself. In a block, the same is reported and the block is kept. -/
theorem ofTokens_append_stray_paren :
    (∀ token ∈ (scan ");").tokens.dropLast, ¬ token.isEnd) ∧
    (Parse.ofTokens (scan ");").tokens.dropLast).report ≠ [] ∧
    (Parse.ofTokens ((scan ");").tokens.dropLast ++ (scan "a;").tokens)).report =
      (Parse.ofTokens (scan ");").tokens.dropLast).report ++
        (Parse.ofTokens (scan "a;").tokens).report ∧
    (Parse.ofTokens ([(⟨.symbol .leftBrace, "", none, .start⟩ : Token)] ++
        (scan ");").tokens.dropLast ++ [⟨.symbol .rightBrace, "", none, .start⟩] ++
        (scan "a;").tokens)).program =
      .block (Parse.ofTokens (scan ");").tokens.dropLast).program ::
        (Parse.ofTokens (scan "a;").tokens).program := by
  have hend : ∀ token ∈ (scan ");").tokens.dropLast, ¬ token.isEnd := by decide +kernel
  have hbraces : ∀ token ∈ (scan ");").tokens.dropLast,
      ¬ token.isSymbol .leftBrace ∧ ¬ token.isSymbol .rightBrace := by decide +kernel
  have hterminated : Terminated (scan ");").tokens.dropLast := by decide +kernel
  have hlocal := ofTokens_append (scan ");").tokens.dropLast hend
  refine ⟨hend, by decide +kernel, ?_, ?_⟩
  · exact (hlocal.1 (.inr ⟨fun t ht => (hbraces t ht).1, hterminated⟩) _).2
  · exact (hlocal.2 ⟨hbraces, hterminated⟩ _ _ _ rfl rfl).1

end Scriptlet
