import Scriptlet.Grammar.Program
import Scriptlet.Proofs.Grammar.Derivation

/-!
Reading accepts exactly the grammar.

* **Completeness.** A phrase that is derivable is read, with its tree and
  without a note, as soon as what stands behind it cannot extend it
  (`Phrase.EndsBefore`, `Derives.ending`). Declarations end with a semicolon or
  a brace, so that nothing has to be asked of what stands behind them
  (`DerivesDeclaration.ending`, `DerivesProgram.declarations`).
* **Soundness.** What is read without a note is derivable from the tokens that
  were taken (`derives_of_expression`, `derives_of_declarations`). A target is
  read as a level of equality first; if it is a variable, then its tokens are a
  single identifier, which makes the assignment one of the grammar.
* `ofTokens_iff_derivesProgram`: both together, for whole programs.
-/

namespace Scriptlet

namespace Grammar

/-! ### Completeness -/

/-- What stands behind a phrase cannot extend it. -/
def Phrase.EndsBefore (rest : List Token) : Phrase → Prop
  | .expression | .assignment =>
    ∀ token ∈ rest.head?, token.kind ≠ .symbol .equal ∧ BinaryOp.ofKind? token.kind = none
  | .level p =>
    ∀ token ∈ rest.head?, ∀ op, BinaryOp.ofKind? token.kind = some op →
      p.above < op.precedence.above
  | .unary | .primary => True

/-- How the reading of a phrase ends. -/
def Phrase.ending (stop : Token) : Phrase → List Token → Ending Expr
  | .expression, tokens | .assignment, tokens => (Grammar.expression stop tokens).ending
  | .level p, tokens => (binary stop p tokens).ending
  | .unary, tokens => (Grammar.unary stop tokens).ending
  | .primary, [] => .stuck ⟨stop, .expression⟩ [] []
  | .primary, token :: rest => (Grammar.primary stop token rest).ending

variable {stop : Token}

lemma operand_ending (level : Precedence) (tokens : List Token) :
    (operand stop level tokens).ending = (Phrase.operand level).ending stop tokens := by
  cases level with
  | factor => exact operand_of_none stop rfl tokens
  | _ => exact operand_of_some stop rfl tokens

lemma chain_of_endsBefore {level : Precedence} {rest : List Token}
    (h : (Phrase.level level).EndsBefore rest) (left : Expr) :
    (chain stop level left rest).ending = .read left [] rest := by
  cases rest with
  | nil => exact chain_nil stop level left
  | cons token rest =>
      refine chain_of_none stop ?_ left rest
      rw [Option.eq_none_iff_forall_ne_some]
      intro op hop
      obtain ⟨hkind, rfl⟩ := ofKindAt?_eq_some_iff.1 hop
      exact absurd (h token rfl op (BinaryOp.ofKind?_eq_some_iff.2 hkind)) (Nat.lt_irrefl _)

lemma behindTarget_of_endsBefore {rest : List Token} (h : Phrase.assignment.EndsBefore rest)
    (target : Expr) : behindTarget stop target rest = .read target [] rest := by
  cases rest with
  | nil => rfl
  | cons token rest =>
      have := (h token rfl).1
      simp [behindTarget, Token.isSymbol, this]

/-- What cannot extend an assignment cannot extend a level, either. -/
lemma endsBefore_level {rest : List Token} (h : Phrase.assignment.EndsBefore rest)
    (level : Precedence) : (Phrase.level level).EndsBefore rest := by
  intro token htoken op hop
  rw [(h token htoken).2] at hop
  cases hop

/-- What cannot extend a level cannot extend its operands, either. -/
lemma endsBefore_operand {level : Precedence} {rest : List Token}
    (h : (Phrase.level level).EndsBefore rest) : (Phrase.operand level).EndsBefore rest := by
  cases level with
  | factor => trivial
  | _ =>
      intro token htoken op hop
      have := h token htoken op hop
      simp only [Precedence.above] at this ⊢
      omega

/-- A step cannot extend the operand before it. -/
lemma Repeats.endsBefore_operand {level : Precedence} {tokens rest : List Token}
    {steps : List Step} (h : Repeats level tokens steps)
    (hrest : (Phrase.level level).EndsBefore rest) :
    (Phrase.operand level).EndsBefore (tokens ++ rest) := by
  cases h with
  | nil => exact Grammar.endsBefore_operand hrest
  | cons hop _ _ =>
      obtain ⟨hsymbol, hlevel⟩ := ofKindAt?_eq_some_iff.1 (operatorBetween_iff.1 hop)
      have hkind := BinaryOp.ofKind?_eq_some_iff.2 hsymbol
      cases level with
      | factor => trivial
      | _ =>
          intro token htoken op' hop'
          cases htoken
          obtain rfl := Option.some.inj (hkind.symm.trans hop')
          simp [hlevel, Precedence.above]

/-- An operand without operators is a phrase of every level. -/
lemma binary_of_unary {tokens rest : List Token} {tree : Expr}
    (h : (unary stop tokens).ending = .read tree [] rest) (level : Precedence)
    (hrest : (Phrase.level level).EndsBefore rest) :
    (binary stop level tokens).ending = .read tree [] rest := by
  have climb : ∀ level, (Phrase.level level).EndsBefore rest →
      (operand stop level tokens).ending = .read tree [] rest →
      (binary stop level tokens).ending = .read tree [] rest := by
    intro level hrest hoperand
    rw [binary_ending, hoperand, Ending.bind_read, Ending.after_nil, chain_of_endsBefore hrest]
  have factor hrest := climb .factor hrest ((operand_of_none stop rfl tokens).trans h)
  have term hrest := climb .term hrest
    ((operand_of_some stop rfl tokens).trans (factor (endsBefore_operand hrest)))
  have comparison hrest := climb .comparison hrest
    ((operand_of_some stop rfl tokens).trans (term (endsBefore_operand hrest)))
  have equality hrest := climb .equality hrest
    ((operand_of_some stop rfl tokens).trans (comparison (endsBefore_operand hrest)))
  cases level with
  | equality => exact equality hrest
  | comparison => exact comparison hrest
  | term => exact term hrest
  | factor => exact factor hrest

lemma literalValue_eq_iff {token : Token} {value : Value} :
    literalValue token.literal = value ↔ Carries token value := by
  constructor
  · rintro rfl
    rcases h : token.literal with _ | ⟨_ | _⟩
    · exact .none h
    · exact .number h
    · exact .string h
  · rintro (h | h | h) <;> rw [h] <;> rfl

/-- A token by itself is a primary phrase exactly if it is one of the atoms. -/
lemma atom?_eq_some_iff {token : Token} {tree : Expr} :
    atom? token = some tree ↔ Derives .primary [token] tree := by
  constructor
  · intro h
    rw [atom?] at h
    split at h <;> cases h
    · exact .falseWord ‹_›
    · exact .trueWord ‹_›
    · exact .nilWord ‹_›
    · exact .number ‹_› (literalValue_eq_iff.1 rfl)
    · exact .string ‹_› (literalValue_eq_iff.1 rfl)
    · exact .identifier ‹_›
  · intro h
    generalize htokens : [token] = tokens at h
    cases h with
    | trueWord h => cases htokens; simp [atom?, h]
    | falseWord h => cases htokens; simp [atom?, h]
    | nilWord h => cases htokens; simp [atom?, h]
    | number h h' => cases htokens; simp [atom?, h, literalValue_eq_iff.2 h']
    | string h h' => cases htokens; simp [atom?, h, literalValue_eq_iff.2 h']
    | identifier h => cases htokens; simp [atom?, h]
    | grouping _ _ _ => simp at htokens

/-- No primary phrase starts with an operator. -/
lemma unary_of_primary {tokens : List Token} {tree : Expr} (h : Derives .primary tokens tree)
    (rest : List Token) :
    (unary stop (tokens ++ rest)).ending = Phrase.primary.ending stop (tokens ++ rest) := by
  cases h with
  | trueWord h | falseWord h | nilWord h | number h _ | string h _ | identifier h
  | grouping h _ _ =>
      refine unary_of_none stop ?_ _
      simp [h, UnaryOp.ofKind?]

lemma primary_of_atom {token : Token} {tree : Expr} (h : Derives .primary [token] tree)
    (rest : List Token) : Phrase.primary.ending stop ([token] ++ rest) = .read tree [] rest :=
  primary_of_some stop (atom?_eq_some_iff.2 h) rest

/-- The target of an assignment is read as a whole level of equality. -/
lemma binary_of_target {name equals : Token} (hname : name.kind = .identifier)
    (hequals : equals.kind = .symbol .equal) (rest : List Token) :
    (binary stop .equality (name :: equals :: rest)).ending =
      .read (.read name) [] (equals :: rest) := by
  have h := Derives.identifier hname
  refine binary_of_unary ((unary_of_primary h _).trans (primary_of_atom h _)) .equality ?_
  simp [Phrase.EndsBefore, hequals, BinaryOp.ofKind?]

mutual

/-- **Completeness for expressions**: a derivable phrase is read with its tree
and without a note, if what stands behind it cannot extend it. -/
theorem Derives.ending {phrase : Phrase} {tokens rest : List Token} {tree : Expr} :
    Derives phrase tokens tree → phrase.EndsBefore rest →
      phrase.ending stop (tokens ++ rest) = .read tree [] rest
  | .expression h, hrest => h.ending hrest
  | .assign hname hequals h, hrest => by
      have value := h.ending hrest
      simp only [Phrase.ending, List.cons_append] at value ⊢
      rw [expression_ending, binary_of_target hname hequals, Ending.bind_read, Ending.after_nil,
        behindTarget, if_pos (by simp [Token.isSymbol, hequals]), value]
      rfl
  | .equality h, hrest => by
      have target := h.ending (endsBefore_level hrest _)
      simp only [Phrase.ending] at target ⊢
      rw [expression_ending, target, Ending.bind_read, Ending.after_nil]
      exact behindTarget_of_endsBefore hrest _
  | .level h h', hrest => by
      have operand := h.ending (h'.endsBefore_operand hrest)
      rw [← operand_ending] at operand
      rw [List.append_assoc, Phrase.ending, binary_ending, operand, Ending.bind_read,
        Ending.after_nil]
      exact h'.ending hrest
  | .unary hop h, hrest => by
      have operand := h.ending hrest
      simp only [Phrase.ending, List.cons_append] at operand ⊢
      rw [unary_of_some stop (operatorBefore_iff.1 hop), operand]
      rfl
  | .primary h, hrest => (unary_of_primary h rest).trans (h.ending hrest)
  | .trueWord h, _ => primary_of_atom (Derives.trueWord h) rest
  | .falseWord h, _ => primary_of_atom (Derives.falseWord h) rest
  | .nilWord h, _ => primary_of_atom (Derives.nilWord h) rest
  | .number h h', _ => primary_of_atom (Derives.number h h') rest
  | .string h h', _ => primary_of_atom (Derives.string h h') rest
  | .identifier h, _ => primary_of_atom (Derives.identifier h) rest
  | @Derives.grouping _ right _ _ hleft hright h, _ => by
      have closed : Phrase.expression.EndsBefore (right :: rest) := by
        simp [Phrase.EndsBefore, hright, BinaryOp.ofKind?]
      have inner := h.ending closed
      simp only [Phrase.ending, List.cons_append, List.append_assoc] at inner ⊢
      rw [primary_of_paren stop hleft, List.nil_append, inner, Ending.bind_read, Ending.after_nil,
        Ending.close, if_pos (by simp [Token.isSymbol, hright])]

/-- Completeness for the steps of a level. -/
theorem Repeats.ending {level : Precedence} {tokens rest : List Token} {steps : List Step}
    {left : Expr} :
    Repeats level tokens steps → (Phrase.level level).EndsBefore rest →
      (chain stop level left (tokens ++ rest)).ending =
        .read (steps.foldl Step.onto left) [] rest
  | .nil, hrest => chain_of_endsBefore hrest left
  | .cons hop h h', hrest => by
      have operand := h.ending (h'.endsBefore_operand hrest)
      rw [← operand_ending] at operand
      rw [List.cons_append, List.cons_append, List.append_assoc,
        chain_of_some stop (operatorBetween_iff.1 hop), operand, Ending.bind_read, Ending.after_nil]
      exact h'.ending hrest

end

/-- An expression is read up to the semicolon behind it. -/
lemma expression_before_semicolon {tokens : List Token} {semicolon : Token} {tree : Expr}
    (h : Derives .expression tokens tree) (hsemicolon : semicolon.kind = .symbol .semicolon)
    (rest : List Token) :
    (expression stop (tokens ++ [semicolon] ++ rest)).ending =
      .read tree [] (semicolon :: rest) := by
  rw [List.append_assoc]
  refine h.ending ?_
  simp [Phrase.EndsBefore, hsemicolon, BinaryOp.ofKind?]

/-- A token of an expression starts an expression statement, if any. -/
lemma statement_of_inExpression {token : Token} (h : inExpression token.kind)
    (rest : List Token) :
    (statement stop token rest).ending =
      (expression stop (token :: rest)).ending.bind fun value =>
        Ending.close stop .semicolon .semicolonAfterExpression (.expression value) := by
  rw [statement_ending]
  split
  case h_4 => rfl
  all_goals
    rename_i hkind
    rw [hkind] at h
    cases h

mutual

/-- **Completeness for declarations**: a derivable declaration is read with its
tree and without a note, whatever stands behind it. -/
theorem DerivesDeclaration.ending {tokens : List Token} {tree : Statement} :
    DerivesDeclaration tokens tree → ∀ rest, ∃ token more, tokens = token :: more ∧
      token.kind ≠ .symbol .rightBrace ∧
      (statement stop token (more ++ rest)).ending = .read tree [] rest
  | .bare hword hname hsemicolon, rest => by
      refine ⟨_, _, rfl, by simp [hword], ?_⟩
      simp [statement_ending, hword, variableDeclaration_ending, hname, initializer_ending,
        Ending.close, Token.isSymbol, hsemicolon]
  | .initialized hword hname hequals h hsemicolon, rest => by
      refine ⟨_, _, rfl, by simp [hword], ?_⟩
      simp [statement_ending, hword, variableDeclaration_ending, hname, initializer_ending,
        Token.isSymbol, hequals, expression_before_semicolon h hsemicolon, Ending.close, hsemicolon]
  | .statement h, rest => h.ending rest

/-- Completeness for statements. -/
theorem DerivesStatement.ending {tokens : List Token} {tree : Statement} :
    DerivesStatement tokens tree → ∀ rest, ∃ token more, tokens = token :: more ∧
      token.kind ≠ .symbol .rightBrace ∧
      (statement stop token (more ++ rest)).ending = .read tree [] rest
  | .print hword h hsemicolon, rest => by
      refine ⟨_, _, rfl, by simp [hword], ?_⟩
      simp [statement_ending, hword, expression_before_semicolon h hsemicolon, Ending.close,
        Token.isSymbol, hsemicolon]
  | .block hleft h hright, rest => by
      refine ⟨_, _, rfl, by simp [hleft], ?_⟩
      simp [statement_ending, hleft, h.block_ending hright]
  | .expression h hsemicolon, rest => by
      obtain ⟨token, more, rfl⟩ := List.exists_cons_of_ne_nil h.ne_nil
      have htoken := h.inExpression token (by simp)
      refine ⟨token, more ++ [_], rfl, ?_, ?_⟩
      · intro hbrace
        rw [hbrace] at htoken
        cases htoken
      · have value : (expression stop _).ending = _ := expression_before_semicolon h hsemicolon rest
        rw [statement_of_inExpression htoken]
        simp only [List.cons_append] at value ⊢
        rw [value, Ending.bind_read, Ending.after_nil, Ending.close,
          if_pos (by simp [Token.isSymbol, hsemicolon])]

/-- Completeness for the inside of a block. -/
theorem DerivesProgram.block_ending {tokens : List Token} {right : Token}
    {body : List Statement} :
    DerivesProgram tokens body → right.kind = .symbol .rightBrace → ∀ rest,
      (block stop (tokens ++ [right] ++ rest)).ending = .read body [] rest
  | .nil, hright, rest => block_of_brace stop (by simp [Token.isSymbol, hright]) rest
  | @DerivesProgram.cons _ more _ _ h h', hright, rest => by
      obtain ⟨token, first, rfl, hbrace, hfirst⟩ := h.ending (more ++ [right] ++ rest)
      obtain ⟨hresult, hnotes, hrest⟩ := declaration_of_read hfirst
      rw [show token :: first ++ more ++ [right] ++ rest =
          token :: (first ++ (more ++ [right] ++ rest)) by simp,
        block_of_not_brace stop (by simp [Token.isSymbol, hbrace]), hresult, hnotes, hrest,
        h'.block_ending hright rest]
      rfl

end

/-- Completeness for whole programs. -/
theorem DerivesProgram.declarations {tokens : List Token} {program : List Statement} :
    DerivesProgram tokens program → Grammar.declarations stop tokens = (program, [])
  | .nil => declarations_nil stop
  | @DerivesProgram.cons _ more _ _ h h' => by
      obtain ⟨token, first, rfl, -, hfirst⟩ := h.ending more
      obtain ⟨hresult, hnotes, hrest⟩ := declaration_of_read hfirst
      rw [List.cons_append, declarations_cons, hresult, hnotes, hrest, h'.declarations]
      rfl

/-! ### Soundness -/

lemma eq_read_of_assignment {equals : Token} {target value : Expr}
    (h : (assignment equals target value).2 = []) : ∃ name, target = .read name := by
  cases target with
  | read name => exact ⟨name, rfl⟩
  | _ => cases h

variable (stop)

/-- What the rules of expressions read without a note is derivable from the
tokens that they took. -/
theorem derives_of_rules :
    (∀ tokens tree rest, (expression stop tokens).ending = .read tree [] rest →
      ∃ used, tokens = used ++ rest ∧ Derives .assignment used tree) ∧
    (∀ level tokens tree rest, (binary stop level tokens).ending = .read tree [] rest →
      ∃ used, tokens = used ++ rest ∧ Derives (.level level) used tree) ∧
    (∀ level left tokens tree rest, (chain stop level left tokens).ending = .read tree [] rest →
      ∃ used steps, tokens = used ++ rest ∧ Repeats level used steps ∧
        tree = steps.foldl Step.onto left) ∧
    (∀ level tokens tree rest, (operand stop level tokens).ending = .read tree [] rest →
      ∃ used, tokens = used ++ rest ∧ Derives (.operand level) used tree) ∧
    (∀ tokens tree rest, (unary stop tokens).ending = .read tree [] rest →
      ∃ used, tokens = used ++ rest ∧ Derives .unary used tree) ∧
    (∀ token tokens tree rest, (primary stop token tokens).ending = .read tree [] rest →
      ∃ used, tokens = used ++ rest ∧ Derives .primary (token :: used) tree) := by
  refine rule_induction stop ?expression ?binary ?chain_nil ?chain_end ?chain_step
    ?operand_tighter ?operand_unary ?unary_nil ?unary_operator ?unary_primary ?primary_paren
    ?primary_atom ?primary_other
  case expression =>
      intro tokens target_derives value_derives tree rest h
      rw [expression_ending, Ending.bind_eq_read_nil_iff] at h
      obtain ⟨target, behind, htarget, h⟩ := h
      obtain ⟨used, rfl, hused⟩ := target_derives target behind htarget
      cases behind with
      | nil =>
          cases h
          exact ⟨used, rfl, .equality hused⟩
      | cons equals behind =>
          rw [behindTarget] at h
          split at h
          case isTrue hequals =>
              obtain ⟨value, middle, hvalue, hread⟩ := Ending.bind_eq_read_nil_iff.1 h
              obtain ⟨more, rfl, hmore⟩ := value_derives _ _ _ _ htarget hequals _ _ hvalue
              obtain ⟨rfl, hnotes, rfl⟩ := Ending.read.inj hread
              -- there is no note only if the target is a variable
              obtain ⟨name, rfl⟩ := eq_read_of_assignment hnotes
              obtain ⟨rfl, hname⟩ := hused.eq_singleton_of_read rfl
              refine ⟨name :: equals :: more, rfl, .assign hname ?_ hmore⟩
              simpa [Token.isSymbol] using hequals
          case isFalse =>
              cases h
              exact ⟨used, rfl, .equality hused⟩
  case binary =>
      intro level tokens operand_derives steps_derive tree rest h
      rw [binary_ending, Ending.bind_eq_read_nil_iff] at h
      obtain ⟨left, behind, hleft, h⟩ := h
      obtain ⟨used, rfl, hused⟩ := operand_derives left behind hleft
      obtain ⟨more, steps, rfl, hsteps, rfl⟩ := steps_derive left [] behind hleft tree rest h
      exact ⟨used ++ more, by simp, .level hused hsteps⟩
  case chain_nil =>
      intro level left tree rest h
      rw [chain_nil] at h
      cases h
      exact ⟨[], [], rfl, .nil, rfl⟩
  case chain_end =>
      intro level left operator tokens hop tree rest h
      rw [chain_of_none stop hop] at h
      cases h
      exact ⟨[], [], rfl, .nil, rfl⟩
  case chain_step =>
      intro level left operator tokens op hop operand_derives steps_derive tree rest h
      rw [chain_of_some stop hop, Ending.bind_eq_read_nil_iff] at h
      obtain ⟨right, behind, hright, h⟩ := h
      obtain ⟨used, rfl, hused⟩ := operand_derives right behind hright
      obtain ⟨more, steps, rfl, hsteps, rfl⟩ := steps_derive right [] behind hright tree rest h
      have hcons := Repeats.cons (operatorBetween_iff.2 hop) hused hsteps
      exact ⟨operator :: used ++ more, _, by simp, hcons, rfl⟩
  case operand_tighter =>
      intro level tighter tokens htighter ih tree rest h
      rw [operand_of_some stop htighter] at h
      cases level <;> cases htighter <;> exact ih tree rest h
  case operand_unary =>
      intro level tokens htighter ih tree rest h
      rw [operand_of_none stop htighter] at h
      cases level <;> cases htighter
      exact ih tree rest h
  case unary_nil =>
      intro tree rest h
      rw [unary_nil] at h
      cases h
  case unary_operator =>
      intro operator tokens op hop ih tree rest h
      rw [unary_of_some stop hop, Ending.bind_eq_read_nil_iff] at h
      obtain ⟨operand, middle, hoperand, h⟩ := h
      cases h
      obtain ⟨used, rfl, hused⟩ := ih operand rest hoperand
      exact ⟨operator :: used, rfl, .unary (operatorBefore_iff.2 hop) hused⟩
  case unary_primary =>
      intro token tokens hop ih tree rest h
      rw [unary_of_none stop hop] at h
      obtain ⟨used, rfl, hused⟩ := ih tree rest h
      exact ⟨token :: used, rfl, .primary hused⟩
  case primary_paren =>
      intro token tokens htoken ih tree rest h
      rw [primary_of_paren stop htoken, Ending.bind_close_eq_read_nil_iff] at h
      obtain ⟨inner, right, hinner, hright, rfl⟩ := h
      obtain ⟨used, rfl, hused⟩ := ih inner _ hinner
      exact ⟨used ++ [right], by simp, .grouping htoken hright (.expression hused)⟩
  case primary_atom =>
      intro token tokens phrase hatom tree rest h
      rw [primary_of_some stop hatom] at h
      cases h
      exact ⟨[], rfl, atom?_eq_some_iff.1 hatom⟩
  case primary_other =>
      intro token tokens hatom hparen tree rest h
      rw [primary_of_none stop hatom hparen] at h
      cases h

variable {stop}

/-- **Soundness for expressions.** -/
lemma derives_of_expression {tokens rest : List Token} {tree : Expr}
    (h : (expression stop tokens).ending = .read tree [] rest) :
    ∃ used, tokens = used ++ rest ∧ Derives .expression used tree := by
  obtain ⟨used, htokens, hused⟩ := (derives_of_rules stop).1 tokens tree rest h
  exact ⟨used, htokens, .expression hused⟩

lemma derives_of_variableDeclaration {word : Token} (hword : word.kind = .keyword .var)
    {tokens rest : List Token} {tree : Statement}
    (h : (variableDeclaration stop tokens).ending = .read tree [] rest) :
    ∃ used, tokens = used ++ rest ∧ DerivesDeclaration (word :: used) tree := by
  rw [variableDeclaration_ending] at h
  cases tokens with
  | nil => cases h
  | cons name behind =>
      dsimp only at h
      split at h
      case isFalse => cases h
      case isTrue hname =>
          obtain ⟨declared, semicolon, hdeclared, hsemicolon, rfl⟩ :=
            Ending.bind_close_eq_read_nil_iff.1 h
          rw [initializer_ending] at hdeclared
          cases behind with
          | nil => cases hdeclared
          | cons equals behind =>
              dsimp only at hdeclared
              split at hdeclared
              case isTrue hequals =>
                  obtain ⟨initial, middle, hinitial, hread⟩ :=
                    Ending.bind_eq_read_nil_iff.1 hdeclared
                  cases hread
                  obtain ⟨used, rfl, hused⟩ := derives_of_expression hinitial
                  refine ⟨name :: equals :: used ++ [semicolon], by simp, ?_⟩
                  refine .initialized hword hname ?_ hused hsemicolon
                  simpa [Token.isSymbol] using hequals
              case isFalse =>
                  cases hdeclared
                  exact ⟨[name, semicolon], rfl, .bare hword hname hsemicolon⟩

variable (stop)

/-- What the rules of statements read without a note is derivable from the
tokens that they took. -/
theorem derives_of_statement_rules :
    (∀ token tokens tree rest, (statement stop token tokens).ending = .read tree [] rest →
      ∃ used, tokens = used ++ rest ∧ DerivesDeclaration (token :: used) tree) ∧
    (∀ tokens body rest, (block stop tokens).ending = .read body [] rest →
      ∃ used right, tokens = used ++ right :: rest ∧ right.kind = .symbol .rightBrace ∧
        DerivesProgram used body) := by
  refine statement_induction stop ?plain ?brace ?block_nil ?block_end ?block_step
  case plain =>
      intro token tokens hbrace tree rest h
      rw [statement_ending] at h
      split at h
      · exact derives_of_variableDeclaration ‹_› h
      · obtain ⟨value, semicolon, hvalue, hsemicolon, rfl⟩ := Ending.bind_close_eq_read_nil_iff.1 h
        obtain ⟨used, rfl, hused⟩ := derives_of_expression hvalue
        exact ⟨used ++ [semicolon], by simp, .statement (.print ‹_› hused hsemicolon)⟩
      · exact absurd ‹_› hbrace
      · obtain ⟨value, semicolon, hvalue, hsemicolon, rfl⟩ := Ending.bind_close_eq_read_nil_iff.1 h
        obtain ⟨used, htokens, hused⟩ := derives_of_expression hvalue
        obtain ⟨first, used, rfl⟩ := List.exists_cons_of_ne_nil hused.ne_nil
        obtain ⟨rfl, rfl⟩ := List.cons.inj htokens
        exact ⟨used ++ [semicolon], by simp, .statement (.expression hused hsemicolon)⟩
  case brace =>
      intro token tokens hbrace ih tree rest h
      simp only [statement_ending, hbrace] at h
      obtain ⟨body, middle, hbody, hread⟩ := Ending.bind_eq_read_nil_iff.1 h
      cases hread
      obtain ⟨used, right, rfl, hright, hused⟩ := ih body rest hbody
      exact ⟨used ++ [right], by simp, .statement (.block hbrace hused hright)⟩
  case block_nil =>
      intro body rest h
      rw [block_nil] at h
      cases h
  case block_end =>
      intro token tokens hbrace body rest h
      rw [block_of_brace stop hbrace] at h
      cases h
      exact ⟨[], token, rfl, by simpa [Token.isSymbol] using hbrace, .nil⟩
  case block_step =>
      intro token tokens hbrace ih ih' body rest h
      rw [block_of_not_brace stop hbrace, Ending.after_eq_read_iff] at h
      obtain ⟨later, h, hnotes⟩ := h
      obtain ⟨hcomplaints, rfl⟩ := List.append_eq_nil_iff.1 hnotes.symm
      obtain ⟨others, middle, hothers, hread⟩ := Ending.bind_eq_read_nil_iff.1 h
      obtain ⟨first, hfirst, hfirst'⟩ := declaration_of_complaints hcomplaints
      obtain ⟨used, hused, hderives⟩ := ih first _ hfirst
      cases hread
      obtain ⟨more, right, hmore, hright, hderives'⟩ := ih' others rest hothers
      refine ⟨token :: used ++ more, right, ?_, hright, ?_⟩
      · rw [hused, hmore]
        simp
      · rw [hfirst']
        exact .cons hderives hderives'

variable {stop}

/-- **Soundness for whole programs.** -/
theorem derives_of_declarations {tokens : List Token} (h : (declarations stop tokens).2 = []) :
    DerivesProgram tokens (declarations stop tokens).1 := by
  induction tokens using declarations_induction stop with
  | nil =>
      rw [declarations_nil]
      exact .nil
  | cons token rest ih =>
      rw [declarations_cons] at h ⊢
      obtain ⟨hfirst, hlater⟩ := List.append_eq_nil_iff.1 h
      obtain ⟨first, hread, hfirst'⟩ := declaration_of_complaints hfirst
      obtain ⟨used, hused, hderives⟩ := (derives_of_statement_rules stop).1 token rest first _ hread
      have htokens : token :: rest = (token :: used) ++ (declaration stop token rest).rest := by
        rw [List.cons_append, ← hused]
      rw [hfirst', htokens]
      exact .cons hderives (ih hlater)

/-- A program is read without a complaint exactly if it is derivable, and it
is the one that is derived. -/
theorem declarations_eq_iff {tokens : List Token} {program : List Statement} :
    declarations stop tokens = (program, []) ↔ DerivesProgram tokens program := by
  constructor
  · intro h
    have derives := derives_of_declarations (congrArg Prod.snd h)
    rwa [h] at derives
  · exact DerivesProgram.declarations

end Grammar

open Grammar in
/-- **Reading accepts exactly the grammar and builds its trees.** The tokens
before the first end marker are read without a report exactly if they are
derivable, and then as the tree of that derivation. So they have at most one
tree, and are reported if they have none. -/
theorem ofTokens_iff_derivesProgram (tokens : List Token) :
    (∀ program, ((Parse.ofTokens tokens).report = [] ∧ (Parse.ofTokens tokens).program = program) ↔
      DerivesProgram (tokens.takeWhile (!·.isEnd)) program) ∧
    (∀ program program', DerivesProgram (tokens.takeWhile (!·.isEnd)) program →
      DerivesProgram (tokens.takeWhile (!·.isEnd)) program' → program = program') ∧
    ((¬ ∃ program, DerivesProgram (tokens.takeWhile (!·.isEnd)) program) →
      (Parse.ofTokens tokens).report ≠ []) := by
  have exact_ : ∀ program,
      ((Parse.ofTokens tokens).report = [] ∧ (Parse.ofTokens tokens).program = program) ↔
        DerivesProgram (tokens.takeWhile (!·.isEnd)) program := by
    intro program
    rw [← declarations_eq_iff, Parse.report, List.map_eq_nil_iff, Prod.ext_iff, and_comm]
    rfl
  refine ⟨exact_, ?_, ?_⟩
  · intro program program' h h'
    rw [← ((exact_ program).2 h).2, ← ((exact_ program').2 h').2]
  · intro h hreport
    exact h ⟨_, (exact_ _).1 ⟨hreport, rfl⟩⟩

end Scriptlet
