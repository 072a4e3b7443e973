import Scriptlet.Proofs.Grammar.Stretch

/-!
Readers follow the grammar.

Every rule of a reader does what the rule of the grammar of the same name says about the tokens
that are left up to an end marker. The induction is that over the rules of the grammar, so a
rule of a reader has an outcome because the rule of the grammar takes tokens.

* `Stretch.follows_rules`: the rules of expressions.
* `Stretch.follows_synchronize`: recovery.
* `Stretch.follows_declaration`, `Stretch.follows_statements`: the rules of statements.
* `Stretch.follows_program`: whole programs.
-/

namespace Scriptlet

namespace Stretch

variable {α : Type} {s : Stretch} {token : Token} {rest : List Token}

/-! ### Expressions -/

/-- An assignment is made, or the phrase before the equals sign is kept and reported. -/
lemma follows_assignment (equals : Token) (target value : Expr) (rest : List Token) :
    s.Follows
      (fun _ => match target with
        | .read name => return .assign name value
        | other => do
          Reader.report ⟨equals, .assignmentTarget⟩
          return other)
      rest (.read (Grammar.assignment equals target value).1
        (Grammar.assignment equals target value).2 rest) := by
  cases target with
  | read name => exact follows_pure _ rest
  | literal | grouping | unary | binary | assign =>
      exact follows_noted ⟨equals, .assignmentTarget⟩ (follows_pure _ rest)

lemma kind_stop (s : Stretch) : s.stop.kind = .endOfInput := by
  simpa [Token.isEnd] using s.isEnd

open Grammar in
/-- **A reader follows the rules of expressions.** The end marker has the role of a token that
fits no rule. -/
theorem follows_rules (s : Stretch) :
    (∀ rest, s.Follows (Reader.expression s.tokens) rest (expression s.stop rest).ending) ∧
    (∀ level rest,
      s.Follows (Reader.binary s.tokens level) rest (binary s.stop level rest).ending) ∧
    (∀ level left rest,
      s.Follows (Reader.chain s.tokens level left) rest (chain s.stop level left rest).ending) ∧
    (∀ level rest,
      s.Follows (Reader.operand s.tokens level) rest (operand s.stop level rest).ending) ∧
    (∀ rest, s.Follows (Reader.unary s.tokens) rest (unary s.stop rest).ending) ∧
    (∀ token rest,
      s.Follows (Reader.primary s.tokens) (token :: rest) (primary s.stop token rest).ending) := by
  refine rule_induction s.stop ?expression ?binary ?chain_nil ?chain_end ?chain_step
    ?operand_tighter ?operand_unary ?unary_nil ?unary_operator ?unary_primary ?primary_paren
    ?primary_atom ?primary_other
  case expression =>
      intro rest ihtarget ihvalue
      refine .of_succ ?_
      simp only [Reader.expression]
      rw [expression_ending]
      refine ihtarget.bind ?_
      intro target notes rest hread
      cases rest with
      | nil => exact (follows_accept_of_lacks (lacks_nil _)).andThen (follows_pure target [])
      | cons equals rest =>
          rw [behindTarget]
          by_cases hequals : equals.isSymbol .equal
          · have hkind : equals.kind = .symbol .equal := by simpa [Token.isSymbol] using hequals
            rw [if_pos hequals]
            refine (follows_accept hkind rest).andThen ?_
            refine (ihvalue target notes equals rest hread hequals).bind ?_
            intro value _ rest' _
            exact follows_assignment equals target value rest'
          · rw [if_neg hequals]
            exact (follows_accept_of_lacks (lacks_of_not_isSymbol hequals rest)).andThen
              (follows_pure target _)
  case binary =>
      intro level rest ihoperand ihchain
      refine .of_succ ?_
      simp only [Reader.binary]
      rw [binary_ending]
      exact ihoperand.bind ihchain
  case chain_nil =>
      intro level left
      refine .of_succ ?_
      simp only [Reader.chain]
      rw [chain_nil]
      refine (follows_peek []).andThen ?_
      rw [List.headD_nil, s.kind_stop]
      exact follows_pure left []
  case chain_end =>
      intro level left operator rest hop
      refine .of_succ ?_
      simp only [Reader.chain]
      rw [chain_of_none s.stop hop]
      refine (follows_peek _).andThen ?_
      simp only [List.headD_cons, hop]
      exact follows_pure left _
  case chain_step =>
      intro level left operator rest op hop ihoperand ihchain
      refine .of_succ ?_
      simp only [Reader.chain]
      rw [chain_of_some s.stop hop]
      refine (follows_peek _).andThen ?_
      simp only [List.headD_cons, hop]
      exact (follows_advance operator rest).andThen (ihoperand.bind ihchain)
  case operand_tighter =>
      intro level tighter rest htighter ih
      refine .of_succ ?_
      simp only [Reader.operand]
      rw [operand_of_some s.stop htighter, htighter]
      exact ih
  case operand_unary =>
      intro level rest htighter ih
      refine .of_succ ?_
      simp only [Reader.operand]
      rw [operand_of_none s.stop htighter, htighter]
      exact ih
  case unary_nil =>
      refine .of_succ ?_
      simp only [Reader.unary]
      rw [unary_nil]
      refine (follows_peek []).andThen ?_
      rw [List.headD_nil, s.kind_stop]
      refine .of_succ ?_
      simp only [Reader.primary]
      refine (follows_peek []).andThen ?_
      rw [List.headD_nil, atom?, s.kind_stop]
      exact follows_throw _ []
  case unary_operator =>
      intro operator rest op hop ih
      refine .of_succ ?_
      simp only [Reader.unary]
      rw [unary_of_some s.stop hop]
      refine (follows_peek _).andThen ?_
      simp only [List.headD_cons, hop]
      refine (follows_advance operator rest).andThen (ih.bind ?_)
      intro operand _ rest' _
      exact follows_pure _ rest'
  case unary_primary =>
      intro token rest hop ih
      refine .of_succ ?_
      simp only [Reader.unary]
      rw [unary_of_none s.stop hop]
      refine (follows_peek _).andThen ?_
      simp only [List.headD_cons, hop]
      exact ih
  case primary_paren =>
      intro token rest htoken ih
      have hatom : atom? token = none := by rw [atom?, htoken]
      refine .of_succ ?_
      simp only [Reader.primary]
      rw [primary_of_paren s.stop htoken]
      refine (follows_peek _).andThen ?_
      simp only [List.headD_cons, hatom, htoken, if_true]
      refine (follows_advance token rest).andThen (ih.bind ?_)
      intro inner _ rest' _
      exact follows_close .rightParen .closingParen _ rest'
  case primary_atom =>
      intro token rest phrase hatom
      refine .of_succ ?_
      simp only [Reader.primary]
      rw [primary_of_some s.stop hatom]
      refine (follows_peek _).andThen ?_
      simp only [List.headD_cons, hatom]
      exact (follows_advance token rest).andThen (follows_pure phrase rest)
  case primary_other =>
      intro token rest hatom hparen
      refine .of_succ ?_
      simp only [Reader.primary]
      rw [primary_of_none s.stop hatom hparen]
      refine (follows_peek _).andThen ?_
      simp only [List.headD_cons, hatom, hparen, if_false]
      exact follows_throw _ _

lemma follows_expression (rest : List Token) :
    s.Follows (Reader.expression s.tokens) rest (Grammar.expression s.stop rest).ending :=
  s.follows_rules.1 rest

/-! ### Statements -/

/-- An expression that a symbol has to follow. -/
lemma follows_closedExpression (symbol : Symbol) (missing : Expectation) (f : Expr → α)
    (rest : List Token) :
    s.Follows
      (fun limit => do
        let value ← Reader.expression s.tokens limit
        let _ ← Reader.consume s.tokens (.symbol symbol) missing
        return f value)
      rest ((Grammar.expression s.stop rest).ending.bind fun value =>
        Ending.close s.stop symbol missing (f value)) := by
  refine (follows_expression rest).bind ?_
  intro value _ rest' _
  exact follows_close symbol missing (f value) rest'

lemma follows_initializer (name : Token) (rest : List Token) :
    s.Follows (Reader.initializer s.tokens name) rest
      (Grammar.initializer s.stop name rest).ending := by
  rw [Grammar.initializer_ending]
  cases rest with
  | nil => exact (follows_accept_of_lacks (lacks_nil _)).andThen (follows_pure _ [])
  | cons equals rest =>
      dsimp only
      by_cases hequals : equals.isSymbol .equal
      · have hkind : equals.kind = .symbol .equal := by simpa [Token.isSymbol] using hequals
        rw [if_pos hequals]
        refine (follows_accept hkind rest).andThen ((follows_expression rest).bind ?_)
        intro initial _ rest' _
        exact follows_pure _ rest'
      · rw [if_neg hequals]
        exact (follows_accept_of_lacks (lacks_of_not_isSymbol hequals rest)).andThen
          (follows_pure _ _)

lemma follows_variableDeclaration (rest : List Token) :
    s.Follows (Reader.variableDeclaration s.tokens) rest
      (Grammar.variableDeclaration s.stop rest).ending := by
  rw [Grammar.variableDeclaration_ending]
  cases rest with
  | nil => exact (follows_consume_of_lacks (lacks_nil _) .variableName).stuck _
  | cons name rest =>
      dsimp only
      by_cases hname : name.kind = .identifier
      · rw [if_pos hname]
        refine (follows_consume hname .variableName rest).andThen ?_
        refine (follows_initializer name rest).bind ?_
        intro declared _ rest' _
        exact follows_close .semicolon .semicolonAfterDeclaration declared rest'
      · have hlacks : Lacks .identifier (name :: rest) := by simpa [Lacks] using hname
        rw [if_neg hname]
        exact (follows_consume_of_lacks hlacks .variableName).stuck _

/-! ### Recovery -/

lemma follows_skip (rest : List Token) :
    s.Follows (Reader.skip s.tokens) rest
      (.read () [] (Grammar.boundary (s.passed rest) rest)) := by
  induction rest with
  | nil =>
      refine .of_succ ?_
      simp only [Reader.skip]
      exact (follows_isAtEnd []).andThen (follows_pure () [])
  | cons token rest ih =>
      refine .of_before fun reader hreader => ?_
      refine .of_succ ?_
      simp only [Reader.skip]
      rw [Grammar.boundary]
      refine (follows_isAtEnd _).andThen ?_
      refine (follows_previous _).andThen ((follows_peek _).andThen ?_)
      rw [List.headD_cons]
      split
      case isTrue => exact follows_pure () _
      case isFalse =>
          rw [hreader.passed_eq] at ih
          exact (follows_advance token rest).andThen ih

lemma follows_synchronize (rest : List Token) :
    s.Follows (Reader.synchronize s.tokens) rest (.read () [] (Grammar.resume rest)) := by
  cases rest with
  | nil => exact follows_advance_nil.andThen (follows_skip [])
  | cons token rest =>
      refine .of_before fun reader hreader => ?_
      have hskip := s.follows_skip rest
      rw [hreader.passed_eq] at hskip
      exact (follows_advance token rest).andThen hskip

/-- A declaration is read as its rule says, or recovered from. -/
lemma follows_declaration
    (h : s.Follows (Reader.statement s.tokens) (token :: rest)
      (Grammar.statement s.stop token rest).ending) :
    s.Follows (Reader.declaration s.tokens) (token :: rest)
      (.read (Grammar.declaration s.stop token rest).statement?
        (Grammar.declaration s.stop token rest).complaints
        (Grammar.declaration s.stop token rest).rest) := by
  refine .of_succ ?_
  have hread : s.Follows (fun limit => do return some (← Reader.statement s.tokens limit))
      (token :: rest) ((Grammar.statement s.stop token rest).ending.bind fun result rest' =>
        .read (some result) [] rest') :=
    h.bind fun result _ rest' _ => follows_pure (some result) rest'
  intro reader hreader
  obtain ⟨between, hends, hbetween, hnotes, hkeeps⟩ := hread reader hreader
  cases hending : (Grammar.statement s.stop token rest).ending with
  | read result notes rest' =>
      obtain ⟨hresult, hcomplaints, hrest⟩ := Grammar.declaration_of_read hending
      rw [hending, Ending.bind_read, Ending.after, List.append_nil] at hends hbetween hnotes
      rw [hresult, hcomplaints, hrest]
      exact ⟨between, hends.tryCatch_ok, hbetween, hnotes, hkeeps⟩
  | stuck cause notes rest' =>
      obtain ⟨hresult, hcomplaints, hrest⟩ := Grammar.declaration_of_stuck hending
      rw [hending, Ending.bind_stuck] at hends hbetween hnotes
      rw [hresult, hcomplaints, hrest]
      -- the handler goes on where the rule got stuck
      have hrecover : s.Follows
          (fun limit => do
            Reader.report cause
            Reader.synchronize s.tokens limit
            return none)
          rest' (.read (none : Option Statement) [cause] (Grammar.resume rest')) :=
        follows_noted cause ((follows_synchronize rest').andThen (follows_pure none _))
      obtain ⟨after, hends', hafter, hlater, hkeeps'⟩ := hrecover between hbetween
      refine ⟨after, hends.tryCatch_error hends', hafter, ?_, hkeeps.trans hkeeps'⟩
      rw [hlater, hnotes, List.append_assoc]
      rfl

/-- A declaration, and what is read behind it. -/
lemma follows_member {rule : Nat → Reader.Rule (List Statement)} {e : Ending (List Statement)}
    (h : s.Follows (Reader.statement s.tokens) (token :: rest)
      (Grammar.statement s.stop token rest).ending)
    (hlater : s.Follows rule (Grammar.declaration s.stop token rest).rest e) :
    s.Follows
      (fun limit => do
        let first ← Reader.declaration s.tokens limit
        let later ← rule limit
        return first.toList ++ later)
      (token :: rest)
      ((e.bind fun later rest' =>
        .read ((Grammar.declaration s.stop token rest).statement?.toList ++ later) [] rest').after
          (Grammar.declaration s.stop token rest).complaints) := by
  refine (follows_declaration h).behind (hlater.bind ?_)
  intro later _ rest' _
  exact follows_pure _ rest'

open Grammar in
/-- **A reader follows the rules of statements.** -/
theorem follows_statements (s : Stretch) :
    (∀ token rest,
      s.Follows (Reader.statement s.tokens) (token :: rest) (statement s.stop token rest).ending) ∧
    (∀ rest, s.Follows (Reader.block s.tokens) rest (block s.stop rest).ending) := by
  have hlacks {kind : Token.Kind} {token : Token} (h : token.kind ≠ kind) (rest : List Token) :
      Lacks kind (token :: rest) := by
    simpa [Lacks] using h
  refine statement_induction s.stop ?plain ?brace ?block_nil ?block_end ?block_step
  case plain =>
      intro token rest hbrace
      rw [statement_ending]
      split
      case h_1 hvar =>
          refine .of_succ ?_
          simp only [Reader.statement]
          exact (follows_accept hvar rest).andThen (follows_variableDeclaration rest)
      case h_2 hprint =>
          refine .of_succ ?_
          simp only [Reader.statement]
          refine (follows_accept_of_lacks (hlacks (by simp [hprint]) rest)).andThen ?_
          exact (follows_accept hprint rest).andThen
            (follows_closedExpression .semicolon .semicolonAfterValue Statement.print rest)
      case h_3 => exact absurd ‹_› hbrace
      case h_4 hvar hprint _ =>
          refine .of_succ ?_
          simp only [Reader.statement]
          refine (follows_accept_of_lacks (hlacks hvar rest)).andThen ?_
          refine (follows_accept_of_lacks (hlacks hprint rest)).andThen ?_
          refine (follows_accept_of_lacks (hlacks hbrace rest)).andThen ?_
          exact follows_closedExpression .semicolon .semicolonAfterExpression Statement.expression _
  case brace =>
      intro token rest hbrace ih
      refine .of_succ ?_
      simp only [Reader.statement]
      rw [statement_ending, hbrace]
      refine (follows_accept_of_lacks (hlacks (by simp [hbrace]) rest)).andThen ?_
      refine (follows_accept_of_lacks (hlacks (by simp [hbrace]) rest)).andThen ?_
      refine (follows_accept hbrace rest).andThen (ih.bind ?_)
      intro body _ rest' _
      exact follows_pure _ rest'
  case block_nil =>
      refine .of_succ ?_
      simp only [Reader.block]
      rw [block_nil]
      refine (follows_check_nil _).andThen ((follows_isAtEnd []).andThen ?_)
      exact follows_close .rightBrace .closingBrace [] []
  case block_end =>
      intro token rest hbrace
      have hkind : token.kind = .symbol .rightBrace := by simpa [Token.isSymbol] using hbrace
      refine .of_succ ?_
      simp only [Reader.block]
      rw [block_of_brace s.stop hbrace]
      refine (follows_check _ token rest).andThen ((follows_isAtEnd _).andThen ?_)
      rw [decide_eq_true hkind]
      exact (follows_consume hkind .closingBrace rest).andThen (follows_pure [] rest)
  case block_step =>
      intro token rest hbrace ih ihblock
      have hkind : token.kind ≠ .symbol .rightBrace := by simpa [Token.isSymbol] using hbrace
      refine .of_succ ?_
      simp only [Reader.block]
      rw [block_of_not_brace s.stop hbrace]
      refine (follows_check _ token rest).andThen ((follows_isAtEnd _).andThen ?_)
      rw [decide_eq_false hkind]
      exact follows_member ih ihblock

/-- **A reader follows the grammar** up to the end marker. -/
theorem follows_program (rest : List Token) :
    s.Follows (Reader.program s.tokens) rest
      (.read (Grammar.declarations s.stop rest).1 (Grammar.declarations s.stop rest).2 []) := by
  induction rest using Grammar.declarations_induction s.stop with
  | nil =>
      refine .of_succ ?_
      simp only [Reader.program]
      rw [Grammar.declarations_nil]
      exact (follows_isAtEnd []).andThen (follows_pure [] [])
  | cons token rest ih =>
      have hmember := follows_member (s.follows_statements.1 token rest) ih
      rw [Ending.bind_read, Ending.after, Ending.after, List.append_nil] at hmember
      refine .of_succ ?_
      simp only [Reader.program]
      rw [Grammar.declarations_cons]
      exact (follows_isAtEnd _).andThen hmember

end Stretch

end Scriptlet
