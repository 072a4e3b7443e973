import Scriptlet.Grammar.Program
import Scriptlet.Proofs.Grammar.Rules
import Scriptlet.Proofs.Program.Map

/-!
The grammar looks at kinds and literals only.

Other tokens with the same kinds and literals are read in the same way. The program keeps
the tokens that it is read from, and so do the complaints, so both have the other tokens.
In particular, nothing depends on positions.

* `Token.Keeps`: maps of tokens that keep kinds and literals.
* `Complaint.map`, `Ending.map`: complaints and endings of rules with all their tokens
  replaced.
* `Grammar.rules_map`, `Grammar.statements_map`: the rules on other tokens.
* `Parse.ofTokens_moved`, `Parse.report_moved`: the program of tokens at other positions,
  and the report about them.
-/

namespace Scriptlet

/-! ### Other tokens -/

/-- The map keeps of every token what the grammar looks at. -/
structure Token.Keeps (f : Token → Token) : Prop where
  kind : ∀ t, (f t).kind = t.kind
  literal : ∀ t, (f t).literal = t.literal

namespace Token.Keeps

variable {f : Token → Token}

lemma isSymbol (hf : Keeps f) (t : Token) (s : Symbol) : (f t).isSymbol s = t.isSymbol s := by
  rw [Token.isSymbol, Token.isSymbol, hf.kind]

end Token.Keeps

lemma Token.keeps_moved (move : Position → Position) : Keeps (Token.moved move) :=
  ⟨fun _ => rfl, fun _ => rfl⟩

/-! ### Phrases of other tokens -/

/-- The complaint about another token. -/
def Complaint.map (f : Token → Token) (c : Complaint) : Complaint :=
  ⟨f c.token, c.expectation⟩

/-- The complaint with its token at another position. -/
def Complaint.moved (move : Position → Position) (c : Complaint) : Complaint :=
  ⟨c.token.moved move, c.expectation⟩

namespace Ending

variable {α β : Type} (f : Token → Token)

/-- The ending with all tokens replaced, where `g` replaces them in what was read. -/
def map (g : α → α) : Ending α → Ending α
  | read value notes rest => read (g value) (notes.map (Complaint.map f)) (rest.map f)
  | stuck cause notes rest => stuck (cause.map f) (notes.map (Complaint.map f)) (rest.map f)

lemma map_after (g : α → α) (earlier : List Complaint) (e : Ending α) :
    (e.after earlier).map f g = (e.map f g).after (earlier.map (Complaint.map f)) := by
  cases e <;> simp [after, map]

/-- Two rules, one behind the other, read other tokens if both do. -/
lemma bind_map {g : α → α} {g' : β → β} {e : Ending α} {next next' : α → List Token → Ending β}
    (hnext : ∀ value notes rest, e = read value notes rest →
      next' (g value) (rest.map f) = (next value rest).map f g') :
    (e.map f g).bind next' = (e.bind next).map f g' := by
  cases e with
  | read value notes rest =>
      rw [map, bind_read, bind_read, map_after, hnext value notes rest rfl]
  | stuck cause notes rest => rfl

variable {f}

lemma close_map (hf : Token.Keeps f) (g : α → α) (stop : Token) (symbol : Symbol)
    (missing : Expectation) (value : α) (tokens : List Token) :
    close (f stop) symbol missing (g value) (tokens.map f) =
      (close stop symbol missing value tokens).map f g := by
  cases tokens with
  | nil => rfl
  | cons token rest =>
      rw [List.map_cons, close, close, hf.isSymbol]
      split <;> rfl

end Ending

namespace Grammar

variable {f : Token → Token} (hf : Token.Keeps f)

/-! ### Expressions -/

lemma assignment_map (equals : Token) (target value : Expr) :
    assignment (f equals) (target.map f id) (value.map f id) =
      ((assignment equals target value).1.map f id,
        (assignment equals target value).2.map (Complaint.map f)) := by
  cases target <;> rfl

include hf

lemma atom?_map (token : Token) : atom? (f token) = (atom? token).map (Expr.map f id) := by
  rw [atom?, atom?, hf.kind, hf.literal]
  split <;> rfl

/-- Other tokens are read by the rules of expressions in the same way. -/
theorem rules_map (stop : Token) :
    (∀ tokens, (expression (f stop) (tokens.map f)).ending =
      (expression stop tokens).ending.map f (Expr.map f id)) ∧
    (∀ level tokens, (binary (f stop) level (tokens.map f)).ending =
      (binary stop level tokens).ending.map f (Expr.map f id)) ∧
    (∀ level left tokens, (chain (f stop) level (left.map f id) (tokens.map f)).ending =
      (chain stop level left tokens).ending.map f (Expr.map f id)) ∧
    (∀ level tokens, (operand (f stop) level (tokens.map f)).ending =
      (operand stop level tokens).ending.map f (Expr.map f id)) ∧
    (∀ tokens, (unary (f stop) (tokens.map f)).ending =
      (unary stop tokens).ending.map f (Expr.map f id)) ∧
    (∀ token rest, (primary (f stop) (f token) (rest.map f)).ending =
      (primary stop token rest).ending.map f (Expr.map f id)) := by
  refine rule_induction stop ?expression ?binary ?chain_nil ?chain_end ?chain_step
    ?operand_tighter ?operand_unary ?unary_nil ?unary_operator ?unary_primary ?primary_paren
    ?primary_atom ?primary_other
  case expression =>
      intro tokens htarget hvalue
      rw [expression_ending, expression_ending, htarget]
      refine Ending.bind_map f ?_
      intro target notes rest hread
      cases rest with
      | nil => rfl
      | cons equals rest =>
          rw [List.map_cons, behindTarget, behindTarget, hf.isSymbol]
          split
          case isTrue hequals =>
              rw [hvalue target notes equals rest hread hequals]
              refine Ending.bind_map f ?_
              intro value notes rest _
              rw [assignment_map]
              rfl
          case isFalse => rfl
  case binary =>
      intro level tokens hoperand hsteps
      rw [binary_ending, binary_ending, hoperand]
      exact Ending.bind_map f hsteps
  case chain_nil =>
      intro level left
      rw [List.map_nil, chain_nil, chain_nil]
      rfl
  case chain_end =>
      intro level left operator rest hop
      have hmap : BinaryOp.ofKindAt? level (f operator).kind = none := by rwa [hf.kind]
      rw [List.map_cons, chain_of_none stop hop, chain_of_none (f stop) hmap]
      rfl
  case chain_step =>
      intro level left operator rest op hop hoperand hsteps
      have hmap : BinaryOp.ofKindAt? level (f operator).kind = some op := by rwa [hf.kind]
      rw [List.map_cons, chain_of_some stop hop, chain_of_some (f stop) hmap, hoperand]
      exact Ending.bind_map f hsteps
  case operand_tighter =>
      intro level tighter tokens htighter ih
      rw [operand_of_some stop htighter, operand_of_some (f stop) htighter, ih]
  case operand_unary =>
      intro level tokens htighter ih
      rw [operand_of_none stop htighter, operand_of_none (f stop) htighter, ih]
  case unary_nil =>
      rw [List.map_nil, unary_nil, unary_nil]
      rfl
  case unary_operator =>
      intro operator rest op hop ih
      have hmap : UnaryOp.ofKind? (f operator).kind = some op := by rwa [hf.kind]
      rw [List.map_cons, unary_of_some stop hop, unary_of_some (f stop) hmap, ih]
      exact Ending.bind_map f fun _ _ _ _ => rfl
  case unary_primary =>
      intro token rest hop ih
      have hmap : UnaryOp.ofKind? (f token).kind = none := by rwa [hf.kind]
      rw [List.map_cons, unary_of_none stop hop, unary_of_none (f stop) hmap, ih]
  case primary_paren =>
      intro token rest htoken ih
      have hmap : (f token).kind = .symbol .leftParen := by rwa [hf.kind]
      rw [primary_of_paren stop htoken, primary_of_paren (f stop) hmap, ih]
      refine Ending.bind_map f ?_
      intro inner notes rest _
      exact Ending.close_map hf (Expr.map f id) stop .rightParen .closingParen
        (.grouping inner) rest
  case primary_atom =>
      intro token rest phrase hatom
      have hmap : atom? (f token) = some (phrase.map f id) := by
        rw [atom?_map hf, hatom, Option.map_some]
      rw [primary_of_some stop hatom, primary_of_some (f stop) hmap]
      rfl
  case primary_other =>
      intro token rest hatom hparen
      have hmap : atom? (f token) = none := by rw [atom?_map hf, hatom, Option.map_none]
      have hparen' : (f token).kind ≠ .symbol .leftParen := by rwa [hf.kind]
      rw [primary_of_none stop hatom hparen, primary_of_none (f stop) hmap hparen']
      rfl

lemma expression_map (stop : Token) (tokens : List Token) :
    (expression (f stop) (tokens.map f)).ending =
      (expression stop tokens).ending.map f (Expr.map f id) :=
  (rules_map hf stop).1 tokens

/-! ### Statements -/

lemma boundary_map (passed : Token) (tokens : List Token) :
    boundary (f passed) (tokens.map f) = (boundary passed tokens).map f := by
  induction tokens generalizing passed with
  | nil => rfl
  | cons token rest ih =>
      rw [List.map_cons, boundary, boundary, hf.isSymbol, hf.kind, ih]
      split <;> rfl

lemma resume_map (tokens : List Token) : resume (tokens.map f) = (resume tokens).map f := by
  cases tokens with
  | nil => rfl
  | cons token rest => exact boundary_map hf token rest

lemma initializer_map (stop name : Token) (tokens : List Token) :
    (initializer (f stop) (f name) (tokens.map f)).ending =
      (initializer stop name tokens).ending.map f (Statement.map f id) := by
  rw [initializer_ending, initializer_ending]
  cases tokens with
  | nil => rfl
  | cons equals rest =>
      simp only [List.map_cons, hf.isSymbol]
      split
      · rw [expression_map hf]
        exact Ending.bind_map f fun _ _ _ _ => rfl
      · rfl

lemma variableDeclaration_map (stop : Token) (tokens : List Token) :
    (variableDeclaration (f stop) (tokens.map f)).ending =
      (variableDeclaration stop tokens).ending.map f (Statement.map f id) := by
  rw [variableDeclaration_ending, variableDeclaration_ending]
  cases tokens with
  | nil => rfl
  | cons name rest =>
      simp only [List.map_cons, hf.kind]
      split
      · rw [initializer_map hf]
        exact Ending.bind_map f fun value _ rest _ =>
          Ending.close_map hf (Statement.map f id) stop .semicolon .semicolonAfterDeclaration
            value rest
      · rfl

/-- A declaration of other tokens has these tokens, and leaves them behind it. -/
lemma declaration_map {stop token : Token} {rest : List Token}
    (h : (statement (f stop) (f token) (rest.map f)).ending =
      (statement stop token rest).ending.map f (Statement.map f id)) :
    let before := declaration stop token rest
    let after := declaration (f stop) (f token) (rest.map f)
    after.statement? = before.statement?.map (Statement.map f id) ∧
      after.complaints = before.complaints.map (Complaint.map f) ∧
      after.rest = before.rest.map f := by
  intro before after
  cases hs : (statement stop token rest).ending with
  | read result notes rest' =>
      rw [hs] at h
      obtain ⟨hresult, hnotes, hrest⟩ := declaration_of_read hs
      obtain ⟨hresult', hnotes', hrest'⟩ := declaration_of_read h
      rw [hresult, hnotes, hrest]
      exact ⟨hresult', hnotes', hrest'⟩
  | stuck cause notes rest' =>
      rw [hs] at h
      obtain ⟨hresult, hnotes, hrest⟩ := declaration_of_stuck hs
      obtain ⟨hresult', hnotes', hrest'⟩ := declaration_of_stuck h
      rw [hresult, hnotes, hrest, List.map_append, ← resume_map hf]
      exact ⟨hresult', hnotes', hrest'⟩

/-- Other tokens are read by the rules of statements in the same way. -/
theorem statements_map (stop : Token) :
    (∀ token rest, (statement (f stop) (f token) (rest.map f)).ending =
      (statement stop token rest).ending.map f (Statement.map f id)) ∧
    ∀ tokens, (block (f stop) (tokens.map f)).ending =
      (block stop tokens).ending.map f (List.map (Statement.map f id)) := by
  refine statement_induction stop ?plain ?brace ?block_nil ?block_end ?block_step
  case plain =>
      intro token rest hbrace
      rw [statement_ending, statement_ending, hf.kind]
      split
      · exact variableDeclaration_map hf stop rest
      · rw [expression_map hf]
        exact Ending.bind_map f fun value _ rest _ =>
          Ending.close_map hf (Statement.map f id) stop .semicolon .semicolonAfterValue
            (.print value) rest
      · exact absurd ‹_› hbrace
      · rw [← List.map_cons, expression_map hf]
        exact Ending.bind_map f fun value _ rest _ =>
          Ending.close_map hf (Statement.map f id) stop .semicolon .semicolonAfterExpression
            (.expression value) rest
  case brace =>
      intro token rest hbrace ih
      rw [statement_ending, statement_ending, hf.kind, hbrace]
      dsimp only
      rw [ih]
      refine Ending.bind_map f ?_
      intro body notes rest _
      have hbody : Statement.map f id (.block body) = .block (body.map (Statement.map f id)) :=
        congrArg Statement.block (Statement.mapAll_eq_map _ _ body)
      rw [Ending.map, hbody]
      rfl
  case block_nil =>
      rw [List.map_nil, block_nil, block_nil]
      rfl
  case block_end =>
      intro token rest hbrace
      have hmap : (f token).isSymbol .rightBrace := by rwa [hf.isSymbol]
      rw [List.map_cons, block_of_brace stop hbrace, block_of_brace (f stop) hmap]
      rfl
  case block_step =>
      intro token rest hbrace hstatement ih
      have hmap : ¬ (f token).isSymbol .rightBrace := by rwa [hf.isSymbol]
      obtain ⟨hresult, hcomplaints, hrest⟩ := declaration_map hf hstatement
      rw [List.map_cons, block_of_not_brace stop hbrace, block_of_not_brace (f stop) hmap,
        hresult, hcomplaints, hrest, ih, Ending.map_after]
      congr 1
      refine Ending.bind_map f ?_
      intro body notes rest _
      rw [Ending.map, List.map_append, Option.toList_map]
      rfl

/-- **Other tokens are read as the program with these tokens**, and the complaints are about
them. -/
theorem declarations_map (stop : Token) (tokens : List Token) :
    declarations (f stop) (tokens.map f) =
      ((declarations stop tokens).1.map (Statement.map f id),
        (declarations stop tokens).2.map (Complaint.map f)) := by
  induction tokens using declarations_induction stop with
  | nil => rw [List.map_nil, declarations_nil, declarations_nil, List.map_nil, List.map_nil]
  | cons token rest ih =>
      obtain ⟨hresult, hcomplaints, hrest⟩ :=
        declaration_map hf ((statements_map hf stop).1 token rest)
      rw [List.map_cons, declarations_cons, declarations_cons, hresult, hcomplaints, hrest, ih,
        List.map_append, List.map_append, Option.toList_map]

end Grammar

/-! ### Other positions -/

/-- Tokens with an end marker are read as the moved program when they are moved. -/
theorem Parse.ofTokens_moved (move : Position → Position) {tokens : List Token}
    (h : ∃ token ∈ tokens, token.isEnd) :
    ofTokens (tokens.map (Token.moved move)) =
      ⟨(ofTokens tokens).program.map (Statement.moved move),
        (ofTokens tokens).complaints.map (Complaint.moved move)⟩ := by
  obtain ⟨stop, hstop⟩ := Option.isSome_iff_exists.1 (List.find?_isSome.2 h)
  have hstop' : (tokens.map (Token.moved move)).find? (·.isEnd) = some (stop.moved move) := by
    rw [List.find?_map]
    exact congrArg (Option.map (Token.moved move)) hstop
  have hbody : (tokens.map (Token.moved move)).takeWhile (!·.isEnd) =
      (tokens.takeWhile (!·.isEnd)).map (Token.moved move) := List.takeWhile_map
  rw [ofTokens, ofTokens, hstop, hstop', hbody, Option.getD_some, Option.getD_some,
    Grammar.declarations_map (Token.keeps_moved move)]
  rfl

/-- What is reported about moved tokens, if `place` is what moving does to a diagnostic. -/
lemma Parse.report_moved {move : Position → Position} {place : Diagnostic → Diagnostic}
    (hplace : ∀ c : Complaint, (c.moved move).diagnostic = place c.diagnostic)
    {tokens : List Token} (h : ∃ token ∈ tokens, token.isEnd) :
    (ofTokens (tokens.map (Token.moved move))).report = (ofTokens tokens).report.map place := by
  rw [ofTokens_moved move h, report, report, List.map_map, List.map_map]
  exact List.map_congr_left fun c _ => hplace c

end Scriptlet
