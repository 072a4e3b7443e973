import Scriptlet.Proofs.Grammar.Closers

/-!
Blocks that lose their closing brace.

Recovery passes over the token at which a declaration got stuck, also if it is the brace
that closes the block, and goes on behind the next semicolon or before the next word that
opens a statement. So a last declaration that lacks its semicolon takes the brace with it.
The block goes on behind the brace. There it takes the next one for its own, with the
statements before it, or misses a brace at the end.

* `declaration_before_brace`: one declaration before a brace, or the recovery over it.
* `block_behind_brace`, `declarations_behind_brace`: how a block goes on behind its brace,
  and what is read then.
* `rules_spare_braces`, `declarations_spare_braces`: only blocks miss braces.
* `closingBrace_kept_iff`: the brace is kept exactly if nothing or a semicolon stands
  before it.
-/

namespace Scriptlet

namespace Grammar

/-! ### Declarations before a brace -/

section Brace

variable {right : Token} {tokens : List Token}

/-- Tokens end in the same way as the last of them. -/
lemma terminated_iff_of_suffix {rest : List Token} (h : rest <:+ tokens) (hne : rest ≠ []) :
    Terminated rest ↔ Terminated tokens := by
  obtain ⟨used, rfl⟩ := h
  rw [Terminated, Terminated, List.getLast?_append, List.getLast?_eq_some_getLast hne]
  rfl

/-- Expressions end before a brace. -/
lemma TakesFrom.exists_rest {α : Type} {e : Ending α} {more : List Token}
    (hright : right.kind = .symbol .rightBrace) (h : TakesFrom (tokens ++ right :: more) e) :
    ∃ left, left <:+ tokens ∧ e.rest = left ++ right :: more := by
  obtain ⟨used, hused, hin⟩ := h
  rcases List.append_eq_append_iff.1 hused with ⟨taken, rfl, hrest⟩ | ⟨left, rfl, hrest⟩
  · cases taken with
    | nil => exact ⟨[], List.nil_suffix, hrest.symm⟩
    | cons token taken =>
        obtain ⟨rfl, -⟩ := List.cons.inj hrest
        have hbrace := hin right (by simp)
        rw [hright] at hbrace
        cases hbrace
  · exact ⟨left, List.suffix_append used left, hrest⟩

/-- The rule ends before the brace behind the tokens. If it has read something, then there
are still tokens before the brace. -/
def StopsBefore {α : Type} (right : Token) (more tokens : List Token) : Ending α → Prop
  | .read _ _ rest => ∃ left, left ≠ [] ∧ left <:+ tokens ∧ rest = left ++ right :: more
  | .stuck _ _ rest => ∃ left, left <:+ tokens ∧ rest = left ++ right :: more

variable {last : List Token} (hright : right.kind = .symbol .rightBrace)
  (h : ¬ Terminated tokens) (hlast : last <:+ tokens)
include hright h hlast

/-- A semicolon that is found before the brace is not the last token there. -/
lemma stopsBefore_bind_close {α β : Type} {stop : Token} {missing : Expectation} {f : α → β}
    {e : Ending α} {more : List Token} (he : TakesFrom (last ++ right :: more) e) :
    StopsBefore right more tokens
      (e.bind fun value => Ending.close stop .semicolon missing (f value)) := by
  obtain ⟨left, hleft, hrest⟩ := he.exists_rest hright
  replace hleft := hleft.trans hlast
  cases e with
  | stuck cause notes rest => exact ⟨left, hleft, hrest⟩
  | read value notes rest =>
      obtain rfl : rest = left ++ right :: more := hrest
      cases left with
      | nil =>
          have hbrace : ¬ right.isSymbol .semicolon := by simp [Token.isSymbol, hright]
          rw [Ending.bind_read, List.nil_append, Ending.close, if_neg hbrace]
          exact ⟨[], List.nil_suffix, rfl⟩
      | cons token left =>
          rw [Ending.bind_read, List.cons_append, Ending.close]
          split
          case isTrue htoken =>
              refine ⟨left, ?_, (List.suffix_cons token left).trans hleft, rfl⟩
              rintro rfl
              refine h ((terminated_iff_of_suffix hleft (List.cons_ne_nil token [])).1 ?_)
              rintro _ ⟨⟩
              exact htoken
          case isFalse => exact ⟨token :: left, hleft, rfl⟩

lemma variableDeclaration_stopsBefore (stop : Token) (more : List Token) :
    StopsBefore right more tokens (variableDeclaration stop (last ++ right :: more)).ending := by
  rw [variableDeclaration_ending]
  cases last with
  | nil =>
      have hname : right.kind ≠ .identifier := by simp [hright]
      rw [List.nil_append]
      dsimp only
      rw [if_neg hname]
      exact ⟨[], List.nil_suffix, rfl⟩
  | cons name rest =>
      rw [List.cons_append]
      dsimp only
      split
      · exact stopsBefore_bind_close hright h ((List.suffix_cons name rest).trans hlast)
          (initializer_takes stop name _)
      · exact ⟨name :: rest, hlast, rfl⟩

omit hlast in
/-- A declaration without a block ends before the brace. -/
lemma statement_stopsBefore {token : Token} {rest : List Token} (stop : Token)
    (more : List Token) (hbrace : token.kind ≠ .symbol .leftBrace)
    (htokens : token :: rest = tokens) :
    StopsBefore right more tokens (statement stop token (rest ++ right :: more)).ending := by
  have hrest : rest <:+ tokens := htokens ▸ List.suffix_cons token rest
  rw [statement_ending]
  split
  · exact variableDeclaration_stopsBefore hright h hrest stop more
  · exact stopsBefore_bind_close hright h hrest (expression_takes stop _)
  · exact absurd ‹_› hbrace
  · refine stopsBefore_bind_close hright h List.suffix_rfl ?_
    subst htokens
    exact expression_takes stop _

end Brace

/-! ### Recovery -/

/-- Recovery stops at tokens before the brace, or passes over the brace. -/
lemma boundary_before_brace {right passed : Token} {tokens : List Token} (more : List Token)
    (hright : right.kind = .symbol .rightBrace) (h : ¬ Terminated (passed :: tokens)) :
    (∃ left, left ≠ [] ∧ left <:+ tokens ∧
      boundary passed (tokens ++ right :: more) = left ++ right :: more) ∨
    boundary passed (tokens ++ right :: more) = boundary right more := by
  induction tokens generalizing passed with
  | nil =>
      have hpassed : ¬ passed.isSymbol .semicolon := by
        intro hpassed
        refine h ?_
        rintro _ ⟨⟩
        exact hpassed
      refine .inr ?_
      rw [List.nil_append, boundary, hright, if_neg]
      simp [hpassed, Token.Kind.startsStatement]
  | cons token rest ih =>
      rw [List.cons_append, boundary]
      split
      · exact .inl ⟨token :: rest, List.cons_ne_nil token rest, List.suffix_rfl, rfl⟩
      · have hrest : ¬ Terminated (token :: rest) := by
          rwa [terminated_iff_of_suffix (List.suffix_cons passed _) (List.cons_ne_nil token rest)]
        refine (ih hrest).imp_left ?_
        rintro ⟨left, hne, hleft, heq⟩
        exact ⟨left, hne, hleft.trans (List.suffix_cons token rest), heq⟩

/-- **A declaration before a brace.** If no semicolon stands right before the brace, then
reading goes on before the brace with some tokens before it, or the brace is passed over. -/
lemma declaration_before_brace (stop : Token) {right token : Token} {rest : List Token}
    (more : List Token) (hright : right.kind = .symbol .rightBrace)
    (hbrace : token.kind ≠ .symbol .leftBrace) (h : ¬ Terminated (token :: rest)) :
    (∃ left, left ≠ [] ∧ left <:+ token :: rest ∧
      (declaration stop token (rest ++ right :: more)).rest = left ++ right :: more) ∨
    (declaration stop token (rest ++ right :: more)).rest = boundary right more := by
  have hstops := statement_stopsBefore hright h stop more hbrace rfl
  cases hs : (statement stop token (rest ++ right :: more)).ending with
  | read result notes behind =>
      rw [hs] at hstops
      rw [(declaration_of_read hs).2.2]
      exact .inl hstops
  | stuck cause notes behind =>
      rw [hs] at hstops
      rw [(declaration_of_stuck hs).2.2]
      obtain ⟨left, hleft, rfl⟩ := hstops
      cases left with
      | nil => exact .inr rfl
      | cons passed left =>
          have hend : ¬ Terminated (passed :: left) := by
            rwa [terminated_iff_of_suffix hleft (List.cons_ne_nil passed left)]
          refine (boundary_before_brace more hright hend).imp_left ?_
          rintro ⟨left', hne, hleft', heq⟩
          exact ⟨left', hne, (hleft'.trans (List.suffix_cons passed left)).trans hleft, heq⟩

/-- **A block goes on behind its brace** if tokens without a semicolon behind them stand
before it. -/
theorem block_behind_brace (stop : Token) {right : Token} {tokens : List Token}
    (more : List Token) (hright : right.kind = .symbol .rightBrace) (h : ¬ Terminated tokens)
    (hbraces : ∀ token ∈ tokens, ¬ token.isSymbol .leftBrace ∧ ¬ token.isSymbol .rightBrace) :
    ∃ body notes, (block stop (tokens ++ right :: more)).ending =
      ((block stop (boundary right more)).ending.bind fun later rest =>
        .read (body ++ later) [] rest).after notes := by
  -- reading a declaration leaves fewer tokens before the brace, which end in the same way
  induction hn : tokens.length using Nat.strongRecOn generalizing tokens with
  | _ n ih =>
      obtain _ | ⟨token, rest⟩ := tokens
      · exact absurd (fun _ hnone => nomatch hnone) h
      obtain ⟨hleft, hbrace⟩ := hbraces token List.mem_cons_self
      have hkind : token.kind ≠ .symbol .leftBrace := by simpa [Token.isSymbol] using hleft
      let first := declaration stop token (rest ++ right :: more)
      rw [List.cons_append, block_of_not_brace stop hbrace]
      rcases declaration_before_brace stop more hright hkind h with
        ⟨left, hne, hleft, hrest⟩ | hrest
      · have hshorter : left.length < n := by
          have hfirst := first.shorter
          simp only [first, hrest, List.length_append, List.length_cons] at hfirst hn
          omega
        have hend : ¬ Terminated left := by rwa [terminated_iff_of_suffix hleft hne]
        obtain ⟨body, notes, hblock⟩ := ih left.length hshorter hend
          (fun t ht => hbraces t (hleft.subset ht)) rfl
        refine ⟨first.statement?.toList ++ body, first.complaints ++ notes, ?_⟩
        rw [hrest, hblock]
        cases (block stop (boundary right more)).ending <;> simp [Ending.after, first]
      · rw [hrest]
        exact ⟨first.statement?.toList, first.complaints, rfl⟩

/-! ### Complaints about braces -/

/-- No closing brace is missed. -/
def SparesBraces {α : Type} : Ending α → Prop
  | .read _ notes _ => ∀ c ∈ notes, c.expectation ≠ .closingBrace
  | .stuck cause notes _ => ∀ c ∈ notes ++ [cause], c.expectation ≠ .closingBrace

lemma SparesBraces.bind {α β : Type} {e : Ending α} {next : α → List Token → Ending β}
    (h : SparesBraces e)
    (hnext : ∀ value notes rest, e = .read value notes rest → SparesBraces (next value rest)) :
    SparesBraces (e.bind next) := by
  cases e with
  | stuck cause notes rest => exact h
  | read value notes rest =>
      have hthen := hnext value notes rest rfl
      rw [Ending.bind_read]
      cases hending : next value rest with
      | read result later rest' =>
          rw [hending] at hthen
          exact List.forall_mem_append.2 ⟨h, hthen⟩
      | stuck cause later rest' =>
          rw [hending] at hthen
          rw [Ending.after, SparesBraces, List.append_assoc]
          exact List.forall_mem_append.2 ⟨h, hthen⟩

lemma sparesBraces_read {α : Type} (value : α) (rest : List Token) :
    SparesBraces (.read value [] rest) := List.forall_mem_nil _

lemma sparesBraces_stuck {α : Type} {cause : Complaint} {rest : List Token}
    (h : cause.expectation ≠ .closingBrace) : SparesBraces (.stuck cause [] rest : Ending α) :=
  List.forall_mem_singleton.2 h

lemma sparesBraces_close {α : Type} {stop : Token} {symbol : Symbol} {missing : Expectation}
    {value : α} (h : missing ≠ .closingBrace) (tokens : List Token) :
    SparesBraces (Ending.close stop symbol missing value tokens) := by
  cases tokens with
  | nil => exact sparesBraces_stuck h
  | cons token rest =>
      rw [Ending.close]
      split
      · exact sparesBraces_read value rest
      · exact sparesBraces_stuck h

lemma sparesBraces_assignment {equals : Token} {target value : Expr} (rest : List Token) :
    SparesBraces
      (.read (assignment equals target value).1 (assignment equals target value).2 rest) := by
  cases target with
  | read name => exact sparesBraces_read _ rest
  | literal | grouping | unary | binary | assign =>
      exact List.forall_mem_singleton.2 Expectation.noConfusion

section

variable (stop : Token)

/-- Expressions miss no braces. -/
theorem rules_spare_braces :
    (∀ tokens, SparesBraces (expression stop tokens).ending) ∧
    (∀ level tokens, SparesBraces (binary stop level tokens).ending) ∧
    (∀ level left tokens, SparesBraces (chain stop level left tokens).ending) ∧
    (∀ level tokens, SparesBraces (operand stop level tokens).ending) ∧
    (∀ tokens, SparesBraces (unary stop tokens).ending) ∧
    (∀ token rest, SparesBraces (primary stop token rest).ending) := by
  refine rule_induction stop ?expression ?binary ?chain_nil ?chain_end ?chain_step
    ?operand_tighter ?operand_unary ?unary_nil ?unary_operator ?unary_primary ?primary_paren
    ?primary_atom ?primary_other
  case expression =>
      intro tokens ihtarget ihvalue
      rw [expression_ending]
      refine ihtarget.bind ?_
      intro target notes behind hread
      cases behind with
      | nil => exact sparesBraces_read target []
      | cons equals rest =>
          rw [behindTarget]
          split
          case isTrue hequals =>
              refine (ihvalue target notes equals rest hread hequals).bind ?_
              exact fun _ _ rest' _ => sparesBraces_assignment rest'
          case isFalse => exact sparesBraces_read target (equals :: rest)
  case binary =>
      intro level tokens ihleft ihchain
      rw [binary_ending]
      exact ihleft.bind ihchain
  case chain_nil =>
      intro level left
      rw [chain_nil]
      exact sparesBraces_read left []
  case chain_end =>
      intro level left operator rest hop
      rw [chain_of_none stop hop]
      exact sparesBraces_read left (operator :: rest)
  case chain_step =>
      intro level left operator rest op hop ihright ihchain
      rw [chain_of_some stop hop]
      exact ihright.bind ihchain
  case operand_tighter =>
      intro level tighter tokens htighter ih
      rwa [operand_of_some stop htighter]
  case operand_unary =>
      intro level tokens htighter ih
      rwa [operand_of_none stop htighter]
  case unary_nil =>
      rw [unary_nil]
      exact sparesBraces_stuck Expectation.noConfusion
  case unary_operator =>
      intro operator rest op hop ih
      rw [unary_of_some stop hop]
      exact ih.bind fun _ _ rest' _ => sparesBraces_read _ rest'
  case unary_primary =>
      intro token rest hop ih
      rwa [unary_of_none stop hop]
  case primary_paren =>
      intro token rest htoken ih
      rw [primary_of_paren stop htoken]
      exact ih.bind fun _ _ rest' _ => sparesBraces_close Expectation.noConfusion rest'
  case primary_atom =>
      intro token rest phrase hatom
      rw [primary_of_some stop hatom]
      exact sparesBraces_read phrase rest
  case primary_other =>
      intro token rest hatom hparen
      rw [primary_of_none stop hatom hparen]
      exact sparesBraces_stuck Expectation.noConfusion

lemma initializer_spares_braces (name : Token) (tokens : List Token) :
    SparesBraces (initializer stop name tokens).ending := by
  rw [initializer_ending]
  cases tokens with
  | nil => exact sparesBraces_read _ []
  | cons equals rest =>
      dsimp only
      split
      · exact ((rules_spare_braces stop).1 rest).bind fun _ _ rest' _ => sparesBraces_read _ rest'
      · exact sparesBraces_read _ (equals :: rest)

lemma variableDeclaration_spares_braces (tokens : List Token) :
    SparesBraces (variableDeclaration stop tokens).ending := by
  rw [variableDeclaration_ending]
  cases tokens with
  | nil => exact sparesBraces_stuck Expectation.noConfusion
  | cons name rest =>
      dsimp only
      split
      · exact (initializer_spares_braces stop name rest).bind fun _ _ rest' _ =>
          sparesBraces_close Expectation.noConfusion rest'
      · exact sparesBraces_stuck Expectation.noConfusion

/-- A declaration without a block misses no brace. -/
lemma statement_spares_braces {token : Token} (hbrace : token.kind ≠ .symbol .leftBrace)
    (rest : List Token) : SparesBraces (statement stop token rest).ending := by
  rw [statement_ending]
  split
  · exact variableDeclaration_spares_braces stop rest
  · exact ((rules_spare_braces stop).1 rest).bind fun _ _ rest' _ =>
      sparesBraces_close Expectation.noConfusion rest'
  · exact absurd ‹_› hbrace
  · exact ((rules_spare_braces stop).1 (token :: rest)).bind fun _ _ rest' _ =>
      sparesBraces_close Expectation.noConfusion rest'

lemma declaration_spares_braces {token : Token} (hbrace : token.kind ≠ .symbol .leftBrace)
    (rest : List Token) :
    ∀ c ∈ (declaration stop token rest).complaints, c.expectation ≠ .closingBrace := by
  have hspares := statement_spares_braces stop hbrace rest
  cases hs : (statement stop token rest).ending with
  | read result notes rest' =>
      rw [hs] at hspares
      rw [(declaration_of_read hs).2.1]
      exact hspares
  | stuck cause notes rest' =>
      rw [hs] at hspares
      rw [(declaration_of_stuck hs).2.1]
      exact hspares

/-- Tokens without an opening brace that end with a semicolon miss no brace. -/
lemma declarations_spare_braces {tokens : List Token} (h : Terminated tokens)
    (hbraces : ∀ token ∈ tokens, ¬ token.isSymbol .leftBrace) :
    ∀ c ∈ (declarations stop tokens).2, c.expectation ≠ .closingBrace := by
  induction tokens using declarations_induction stop with
  | nil =>
      rw [declarations_nil]
      exact List.forall_mem_nil _
  | cons token rest ih =>
      have hkind : token.kind ≠ .symbol .leftBrace := by
        simpa [Token.isSymbol] using hbraces token List.mem_cons_self
      have hsuffix := (unaffected_of_terminated stop stop hkind h []).2
      have hlater := ih (h.of_suffix hsuffix) fun t ht => hbraces t (hsuffix.subset ht)
      rw [declarations_cons]
      exact List.forall_mem_append.2 ⟨declaration_spares_braces stop hkind rest, hlater⟩

/-- Only a brace that is missing at the end keeps a block from being read. -/
lemma block_misses_brace {tokens rest : List Token} {cause : Complaint} {notes : List Complaint}
    (h : (block stop tokens).ending = .stuck cause notes rest) :
    cause.expectation = .closingBrace ∧ rest = [] := by
  induction tokens using declarations_induction stop generalizing notes with
  | nil =>
      rw [block_nil] at h
      cases h
      exact ⟨rfl, rfl⟩
  | cons token tokens ih =>
      by_cases hbrace : token.isSymbol .rightBrace
      · rw [block_of_brace stop hbrace] at h
        cases h
      · rw [block_of_not_brace stop hbrace] at h
        cases hblock : (block stop (declaration stop token tokens).rest).ending with
        | read body later rest' =>
            rw [hblock] at h
            cases h
        | stuck cause' later rest' =>
            rw [hblock] at h
            cases h
            exact ih hblock

end

/-! ### Programs that start with a block -/

section Programs

variable {stop left : Token} {rest rest' : List Token}
  (hleft : left.kind = .symbol .leftBrace)
include hleft

lemma declarations_of_block_read {body : List Statement} {notes : List Complaint}
    (h : (block stop rest).ending = .read body notes rest') :
    declarations stop (left :: rest) =
      (.block body :: (declarations stop rest').1, notes ++ (declarations stop rest').2) := by
  have hstatement : (statement stop left rest).ending = .read (.block body) notes rest' := by
    simp [statement_ending, hleft, h, Ending.after]
  obtain ⟨hresult, hcomplaints, hrest⟩ := declaration_of_read hstatement
  rw [declarations_cons, hresult, hcomplaints, hrest]
  rfl

lemma declarations_of_block_stuck {cause : Complaint} {notes : List Complaint}
    (h : (block stop rest).ending = .stuck cause notes []) :
    declarations stop (left :: rest) = ([], notes ++ [cause]) := by
  have hstatement : (statement stop left rest).ending = .stuck cause notes [] := by
    simp [statement_ending, hleft, h]
  obtain ⟨hresult, hcomplaints, hrest⟩ := declaration_of_stuck hstatement
  simp [declarations_cons, hresult, hcomplaints, hrest, resume]

/-- **A brace that is passed over is missed.** Nothing is read, and a brace is missed at the
end, or the block has taken a brace of what follows it, and fewer statements are left. -/
theorem declarations_behind_brace {right : Token} {tokens more : List Token}
    (hright : right.kind = .symbol .rightBrace) (h : ¬ Terminated tokens)
    (hbraces : ∀ token ∈ tokens, ¬ token.isSymbol .leftBrace ∧ ¬ token.isSymbol .rightBrace)
    (hmore : (declarations stop more).2 = []) :
    ((declarations stop (left :: (tokens ++ right :: more))).1 = [] ∧
      ∃ c ∈ (declarations stop (left :: (tokens ++ right :: more))).2,
        c.expectation = .closingBrace) ∨
    ∃ body later, (declarations stop (left :: (tokens ++ right :: more))).1 =
        .block body :: later ∧
      Statement.countAll later < Statement.countAll (declarations stop more).1 := by
  obtain ⟨read, notes, hblock⟩ := block_behind_brace stop more hright h hbraces
  cases hlater : (block stop (boundary right more)).ending with
  | stuck cause later rest' =>
      obtain ⟨hmissed, rfl⟩ := block_misses_brace stop hlater
      rw [hlater] at hblock
      rw [declarations_of_block_stuck hleft hblock]
      exact .inl ⟨rfl, cause, List.mem_concat_self, hmissed⟩
  | read later notes' rest' =>
      rw [hlater] at hblock
      rw [declarations_of_block_read hleft hblock]
      refine .inr ⟨_, _, rfl, ?_⟩
      have hread := countAll_declarations_le stop rest'
      have hcount := (derives_of_declarations hmore).countP_closes
      -- one of the tokens that close what follows has closed the block
      have htaken := (statement_rules_afford stop).2 (boundary right more)
      rw [hlater, Affords] at htaken
      have hboundary := countP_closes_le_of_suffix (boundary_suffix right more)
      omega

end Programs

end Grammar

/-! ### Reports -/

/-- No other expectation has the wording of this one. -/
lemma Expectation.message_eq_closingBrace_iff {e : Expectation} :
    e.message = "Expect '\x7d' after block." ↔ e = closingBrace := by
  cases e <;> simp [message]

lemma Complaint.message_diagnostic (c : Complaint) :
    c.diagnostic.message = c.expectation.message := by
  rw [diagnostic, Diagnostic.atToken]
  split <;> rfl

/-- A closing brace is reported to be missing. -/
def Parse.MissesBrace (p : Parse) : Prop :=
  ∃ d ∈ p.report, d.message = "Expect '\x7d' after block."

lemma Parse.missesBrace_iff {p : Parse} :
    p.MissesBrace ↔ ∃ c ∈ p.complaints, c.expectation = .closingBrace := by
  have hmessage : ∀ c : Complaint,
      c.diagnostic.message = "Expect '\x7d' after block." ↔ c.expectation = .closingBrace := by
    intro c
    rw [Complaint.message_diagnostic, Expectation.message_eq_closingBrace_iff]
  constructor
  · rintro ⟨d, hd, hmissed⟩
    obtain ⟨c, hc, rfl⟩ := List.mem_map.1 hd
    exact ⟨c, hc, (hmessage c).1 hmissed⟩
  · rintro ⟨c, hc, hmissed⟩
    exact ⟨c.diagnostic, List.mem_map_of_mem hc, (hmessage c).2 hmissed⟩

open Grammar in
/-- The end of the input is the same for a block and for what follows it. -/
lemma Parse.ofTokens_block {left right : Token} {tokens : List Token}
    (hleft : left.kind = .symbol .leftBrace) (hright : right.kind = .symbol .rightBrace)
    (hend : ∀ token ∈ tokens, ¬ token.isEnd) (more : List Token) :
    ∃ stop behind,
      ofTokens ([left] ++ tokens ++ [right] ++ more) =
        ⟨(declarations stop (left :: (tokens ++ right :: behind))).1,
          (declarations stop (left :: (tokens ++ right :: behind))).2⟩ ∧
      ofTokens more = ⟨(declarations stop behind).1, (declarations stop behind).2⟩ := by
  have hall : ∀ token ∈ [left] ++ tokens ++ [right], ¬ token.isEnd := by
    simp only [List.forall_mem_append, List.forall_mem_singleton]
    exact ⟨⟨by simp [Token.isEnd, hleft], hend⟩, by simp [Token.isEnd, hright]⟩
  obtain ⟨stop, hblock, hmore⟩ := ofTokens_append_of_forall hall more
  refine ⟨stop, more.takeWhile (!·.isEnd), ?_, hmore⟩
  simpa using hblock

open Grammar in
/-- **When a block keeps its closing brace.** Let tokens without braces stand in a block,
however malformed they are, and tokens that are read without a report behind it. The block
is read, with all that follows behind it and no brace missing, exactly if the tokens in it
are empty or end with a semicolon. Then it has the statements and the report of these tokens.
Otherwise nothing is read, and a brace is missed, or the block takes statements that follow
it. -/
theorem closingBrace_kept_iff {left right : Token} {tokens more : List Token}
    (hleft : left.isSymbol .leftBrace) (hright : right.isSymbol .rightBrace)
    (hplain : ∀ token ∈ tokens,
      ¬ token.isSymbol .leftBrace ∧ ¬ token.isSymbol .rightBrace ∧ ¬ token.isEnd)
    (hmore : (Parse.ofTokens more).report = []) :
    let parse := Parse.ofTokens ([left] ++ tokens ++ [right] ++ more)
    ((∃ body, parse.program = .block body :: (Parse.ofTokens more).program) ∧
        ¬ parse.MissesBrace ↔ Terminated tokens) ∧
    (Terminated tokens →
      parse.program = .block (Parse.ofTokens tokens).program :: (Parse.ofTokens more).program ∧
        parse.report = (Parse.ofTokens tokens).report) ∧
    (¬ Terminated tokens → parse.program = [] ∧ parse.MissesBrace ∨
      ∃ body later, parse.program = .block body :: later ∧
        Statement.countAll later < Statement.countAll (Parse.ofTokens more).program) := by
  intro parse
  have hkind : left.kind = .symbol .leftBrace := by simpa [Token.isSymbol] using hleft
  have hkind' : right.kind = .symbol .rightBrace := by simpa [Token.isSymbol] using hright
  have hbraces : ∀ token ∈ tokens, ¬ token.isSymbol .leftBrace ∧ ¬ token.isSymbol .rightBrace :=
    fun t ht => ⟨(hplain t ht).1, (hplain t ht).2.1⟩
  have hend : ∀ token ∈ tokens, ¬ token.isEnd := fun t ht => (hplain t ht).2.2
  obtain ⟨stop, behind, hparse, hbehind⟩ := Parse.ofTokens_block hkind hkind' hend more
  obtain ⟨stop', hinside⟩ := Parse.ofTokens_of_forall hend
  have hclean : (declarations stop behind).2 = [] := by
    simpa [hbehind, Parse.report] using hmore
  by_cases h : Terminated tokens
  · have hblock : (block stop (tokens ++ right :: behind)).ending =
        .read (declarations stop' tokens).1 (declarations stop' tokens).2 behind :=
      block_append_of_terminated h (fun t ht => (hbraces t ht).1) (fun t ht => (hbraces t ht).2)
        hright
    rw [declarations_of_block_read hkind hblock, hclean, List.append_nil] at hparse
    have hprogram : parse.program =
        .block (Parse.ofTokens tokens).program :: (Parse.ofTokens more).program := by
      simp only [parse, hparse, hinside, hbehind]
    have hcomplaints : parse.complaints = (Parse.ofTokens tokens).complaints := by
      simp only [parse, hparse, hinside]
    have hkept : ¬ parse.MissesBrace := by
      rw [Parse.missesBrace_iff, hcomplaints, hinside]
      rintro ⟨c, hc, hmissed⟩
      exact declarations_spare_braces stop' h (fun t ht => (hbraces t ht).1) c hc hmissed
    refine ⟨iff_of_true ⟨⟨_, hprogram⟩, hkept⟩ h, fun _ => ⟨hprogram, ?_⟩, absurd h⟩
    rw [Parse.report, Parse.report, hcomplaints]
  · have hlost : parse.program = [] ∧ parse.MissesBrace ∨
        ∃ body later, parse.program = .block body :: later ∧
          Statement.countAll later < Statement.countAll (Parse.ofTokens more).program := by
      rw [Parse.missesBrace_iff]
      simp only [parse, hparse, hbehind]
      exact declarations_behind_brace hkind hkind' h hbraces hclean
    refine ⟨iff_of_false ?_ h, fun hterminated => absurd hterminated h, fun _ => hlost⟩
    rintro ⟨⟨body, hprogram⟩, hkept⟩
    rcases hlost with ⟨-, hmissed⟩ | ⟨body', later, hprogram', hfewer⟩
    · exact hkept hmissed
    · obtain ⟨-, rfl⟩ := List.cons.inj (hprogram.symm.trans hprogram')
      exact Nat.lt_irrefl _ hfewer

open Grammar in
/-- Two malformed declarations, each up to its semicolon, leave the block its brace. -/
theorem closingBrace_kept_behind_semicolon :
    let left : Token := ⟨.symbol .leftBrace, "\x7b", none, .start⟩
    let right : Token := ⟨.symbol .rightBrace, "\x7d", none, .start⟩
    let tokens := (scan "print ; var ) ;").tokens.dropLast
    let more := (scan "a ;").tokens
    (∀ token ∈ tokens,
      ¬ token.isSymbol .leftBrace ∧ ¬ token.isSymbol .rightBrace ∧ ¬ token.isEnd) ∧
    (Parse.ofTokens more).report = [] ∧
    (Parse.ofTokens tokens).report.length = 2 ∧
    (Parse.ofTokens ([left] ++ tokens ++ [right] ++ more)).program =
      .block (Parse.ofTokens tokens).program :: (Parse.ofTokens more).program ∧
    (Parse.ofTokens ([left] ++ tokens ++ [right] ++ more)).report =
      (Parse.ofTokens tokens).report := by
  intro left right tokens more
  have hplain : ∀ token ∈ tokens,
      ¬ token.isSymbol .leftBrace ∧ ¬ token.isSymbol .rightBrace ∧ ¬ token.isEnd := by
    decide +kernel
  have hmore : (Parse.ofTokens more).report = [] := by decide +kernel
  have hterminated : Terminated tokens := by decide +kernel
  have hleft : left.isSymbol .leftBrace := rfl
  have hright : right.isSymbol .rightBrace := rfl
  exact ⟨hplain, hmore, by decide +kernel,
    (closingBrace_kept_iff hleft hright hplain hmore).2.1 hterminated⟩

/-- Behind `print`, the brace is where the expression is missed, and recovery passes over it:
the block is not read, and its brace is reported to be missing. -/
theorem closingBrace_lost_behind_print :
    let left : Token := ⟨.symbol .leftBrace, "\x7b", none, ⟨1, 1⟩⟩
    let print : Token := ⟨.keyword .print, "print", none, ⟨1, 3⟩⟩
    let right : Token := ⟨.symbol .rightBrace, "\x7d", none, ⟨1, 9⟩⟩
    let stop := Token.endOfInput ⟨1, 10⟩
    (scan "\x7b print \x7d").tokens = [left] ++ [print] ++ [right] ++ [stop] ∧
    (Parse.ofTokens [stop]).report = [] ∧
    (Parse.ofTokens ([left] ++ [print] ++ [right] ++ [stop])).program = [] ∧
    (Parse.ofTokens ([left] ++ [print] ++ [right] ++ [stop])).report =
      [.malformed 1 (some 9) (.lexeme "\x7d") "Expect expression.",
        .malformed 1 none .endOfInput "Expect '\x7d' after block."] := by
  refine ⟨by decide +kernel, by decide +kernel, ?_, by decide +kernel⟩
  exact List.length_eq_zero_iff.1 (by decide +kernel)

end Scriptlet
