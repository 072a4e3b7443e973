import Scriptlet.Proofs.Grammar.Ending

/-!
What each rule of the grammar does, in terms of endings.

The lemmas below say for every rule which endings it is made of. Nothing else
has to look inside a rule: properties of the rules of expressions follow by
`rule_induction`, which has one case for each alternative of the grammar.

* `inExpression`: the tokens that occur in expressions.
* `expression_ending`, …, `primary_ending`: the rules of expressions.
* `rule_induction`: induction over the rules of expressions.
* `statement_ending`, `block_nil`, …: the rules of statements.
-/

namespace Scriptlet.Grammar

/-! ### Tokens of expressions -/

lemma ofKindAt?_eq_some_iff {level : Precedence} {kind : Token.Kind} {op : BinaryOp} :
    BinaryOp.ofKindAt? level kind = some op ↔
      kind = .symbol op.symbol ∧ op.precedence = level := by
  rw [BinaryOp.ofKindAt?, Option.filter_eq_some_iff, BinaryOp.ofKind?_eq_some_iff, beq_iff_eq]

/-- A token of this kind may occur in an expression. -/
def inExpression : Token.Kind → Bool
  | .symbol .leftParen | .symbol .rightParen | .symbol .equal => true
  | .keyword .true | .keyword .false | .keyword .nil => true
  | .number | .string | .identifier => true
  | kind => (UnaryOp.ofKind? kind).isSome || (BinaryOp.ofKind? kind).isSome

@[simp]
lemma inExpression_unary (op : UnaryOp) : inExpression (.symbol op.symbol) = true := by
  cases op <;> rfl

@[simp]
lemma inExpression_binary (op : BinaryOp) : inExpression (.symbol op.symbol) = true := by
  cases op <;> rfl

/-! ### Expressions -/

/-- Goes on with a phrase that may be the target of an assignment. -/
def behindTarget (stop : Token) (target : Expr) : List Token → Ending Expr
  | [] => .read target [] []
  | equals :: rest =>
    if equals.isSymbol .equal then
      (expression stop rest).ending.bind fun value rest' =>
        .read (assignment equals target value).1 (assignment equals target value).2 rest'
    else .read target [] (equals :: rest)

/-- The phrase that a token is by itself. -/
def atom? (token : Token) : Option Expr :=
  match token.kind with
  | .keyword .false => some (.literal (.bool false))
  | .keyword .true => some (.literal (.bool true))
  | .keyword .nil => some (.literal .nil)
  | .number => some (.literal (literalValue token.literal))
  | .string => some (.literal (literalValue token.literal))
  | .identifier => some (.read token)
  | _ => none

variable (stop : Token)

lemma expression_ending (tokens : List Token) :
    (expression stop tokens).ending =
      (binary stop .equality tokens).ending.bind (behindTarget stop) := by
  rw [expression]
  split
  · rename_i h
    simp [h]
  · rename_i h
    simp [h, behindTarget, Ending.after]
  · rename_i target notes equals rest shorter h
    rw [h, Parsed.ending_done, Ending.bind_read, behindTarget]
    split
    · split <;> rename_i h' <;> simp [h', Ending.after]
    · simp [Ending.after]

lemma binary_ending (level : Precedence) (tokens : List Token) :
    (binary stop level tokens).ending =
      (operand stop level tokens).ending.bind fun left rest =>
        (chain stop level left rest).ending := by
  rw [binary]
  split <;> rename_i h <;> simp [h]

lemma chain_nil (level : Precedence) (left : Expr) :
    (chain stop level left []).ending = .read left [] [] := by
  simp [chain]

lemma chain_of_none {level : Precedence} {operator : Token}
    (h : BinaryOp.ofKindAt? level operator.kind = none) (left : Expr) (rest : List Token) :
    (chain stop level left (operator :: rest)).ending = .read left [] (operator :: rest) := by
  rw [chain]
  split <;> simp_all

lemma chain_of_some {level : Precedence} {operator : Token} {op : BinaryOp}
    (h : BinaryOp.ofKindAt? level operator.kind = some op) (left : Expr) (rest : List Token) :
    (chain stop level left (operator :: rest)).ending =
      (operand stop level rest).ending.bind fun right rest' =>
        (chain stop level (.binary op operator left right) rest').ending := by
  rw [chain]
  split
  · simp_all
  · rename_i op' h'
    obtain rfl : op = op' := by simpa [h] using h'
    split <;> rename_i h'' <;> simp [h'']

lemma operand_of_some {level tighter : Precedence} (h : level.tighter? = some tighter)
    (tokens : List Token) :
    (operand stop level tokens).ending = (binary stop tighter tokens).ending := by
  rw [operand]
  split <;> simp_all

lemma operand_of_none {level : Precedence} (h : level.tighter? = none) (tokens : List Token) :
    (operand stop level tokens).ending = (unary stop tokens).ending := by
  rw [operand]
  split <;> simp_all

lemma unary_nil : (unary stop []).ending = .stuck ⟨stop, .expression⟩ [] [] := by
  simp [unary]

lemma unary_of_some {operator : Token} {op : UnaryOp}
    (h : UnaryOp.ofKind? operator.kind = some op) (rest : List Token) :
    (unary stop (operator :: rest)).ending =
      (unary stop rest).ending.bind fun operand rest' =>
        .read (.unary op operator operand) [] rest' := by
  rw [unary]
  split <;> simp_all

lemma unary_of_none {token : Token} (h : UnaryOp.ofKind? token.kind = none)
    (rest : List Token) :
    (unary stop (token :: rest)).ending = (primary stop token rest).ending := by
  rw [unary]
  split <;> simp_all

lemma primary_of_paren {token : Token} (h : token.kind = .symbol .leftParen)
    (rest : List Token) :
    (primary stop token rest).ending =
      (expression stop rest).ending.bind fun inner =>
        Ending.close stop .rightParen .closingParen (.grouping inner) := by
  rw [primary]
  split <;> simp_all [Ending.bind_assoc]

lemma primary_of_some {token : Token} {phrase : Expr} (h : atom? token = some phrase)
    (rest : List Token) :
    (primary stop token rest).ending = .read phrase [] rest := by
  rw [primary]
  rw [atom?] at h
  split at h <;> simp_all

lemma primary_of_none {token : Token} (h : atom? token = none)
    (hparen : token.kind ≠ .symbol .leftParen) (rest : List Token) :
    (primary stop token rest).ending = .stuck ⟨token, .expression⟩ [] (token :: rest) := by
  rw [primary]
  rw [atom?] at h
  split <;> simp_all

/-- **Induction over the rules of expressions.** There is one case for each
alternative of the grammar. Where a rule goes on with what another one has left,
its hypothesis is about every phrase that the other may have read. -/
theorem rule_induction {E : List Token → Prop} {B : Precedence → List Token → Prop}
    {C : Precedence → Expr → List Token → Prop} {O : Precedence → List Token → Prop}
    {U : List Token → Prop} {P : Token → List Token → Prop}
    (expression : ∀ tokens, B .equality tokens →
      (∀ target notes equals rest,
        (binary stop .equality tokens).ending = .read target notes (equals :: rest) →
        equals.isSymbol .equal → E rest) → E tokens)
    (binary : ∀ level tokens, O level tokens →
      (∀ left notes rest, (operand stop level tokens).ending = .read left notes rest →
        C level left rest) → B level tokens)
    (chain_nil : ∀ level left, C level left [])
    (chain_end : ∀ level left operator rest,
      BinaryOp.ofKindAt? level operator.kind = none → C level left (operator :: rest))
    (chain_step : ∀ level left operator rest op,
      BinaryOp.ofKindAt? level operator.kind = some op → O level rest →
      (∀ right notes rest', (operand stop level rest).ending = .read right notes rest' →
        C level (.binary op operator left right) rest') → C level left (operator :: rest))
    (operand_tighter : ∀ level tighter tokens, level.tighter? = some tighter →
      B tighter tokens → O level tokens)
    (operand_unary : ∀ level tokens, level.tighter? = none → U tokens → O level tokens)
    (unary_nil : U [])
    (unary_operator : ∀ operator rest op, UnaryOp.ofKind? operator.kind = some op →
      U rest → U (operator :: rest))
    (unary_primary : ∀ token rest, UnaryOp.ofKind? token.kind = none →
      P token rest → U (token :: rest))
    (primary_paren : ∀ token rest, token.kind = .symbol .leftParen → E rest → P token rest)
    (primary_atom : ∀ token rest phrase, atom? token = some phrase → P token rest)
    (primary_other : ∀ token rest, atom? token = none → token.kind ≠ .symbol .leftParen →
      P token rest) :
    (∀ tokens, E tokens) ∧ (∀ level tokens, B level tokens) ∧
      (∀ level left tokens, C level left tokens) ∧ (∀ level tokens, O level tokens) ∧
      (∀ tokens, U tokens) ∧ (∀ token rest, P token rest) := by
  have other : ∀ token rest, token.kind ≠ .symbol .leftParen → P token rest := by
    intro token rest h
    cases h' : atom? token with
    | none => exact primary_other token rest h' h
    | some phrase => exact primary_atom token rest phrase h'
  apply Grammar.expression.mutual_induct stop
  case case1 | case2 =>
      intros
      rename_i h ih
      refine expression _ ih fun target notes equals rest h' => ?_
      simp [h] at h'
  case case3 | case4 =>
      intros
      rename_i h _ _ _ _ _ _ ih ih'
      refine expression _ ih fun target notes equals rest h' _ => ?_
      rw [h, Parsed.ending_done] at h'
      cases h'
      exact ih'
  case case5 =>
      intros
      rename_i h hequals ih
      refine expression _ ih fun target notes equals rest h' hequals' => ?_
      rw [h, Parsed.ending_done] at h'
      cases h'
      exact absurd hequals' hequals
  case case6 =>
      intros
      rename_i h ih
      refine binary _ _ ih fun left notes rest h' => ?_
      simp [h] at h'
  case case7 =>
      intros
      rename_i h ih ih'
      refine binary _ _ ih fun left notes rest h' => ?_
      rw [h, Parsed.ending_done] at h'
      cases h'
      exact ih'
  case case8 => exact chain_nil
  case case9 => exact chain_end
  case case10 =>
      intros
      rename_i hop _ _ _ _ h ih
      refine chain_step _ _ _ _ _ hop ih fun right notes rest' h' => ?_
      simp [h] at h'
  case case11 =>
      intros
      rename_i hop _ _ _ _ h ih ih'
      refine chain_step _ _ _ _ _ hop ih fun right notes rest' h' => ?_
      rw [h, Parsed.ending_done] at h'
      cases h'
      exact ih'
  case case12 => exact fun level tokens tighter h _ ih => operand_tighter level tighter tokens h ih
  case case13 => exact operand_unary
  case case14 => exact unary_nil
  case case15 => exact unary_operator
  case case16 => exact unary_primary
  case case23 => exact primary_paren
  all_goals
    intros
    apply other
    simp_all

/-! ### Statements -/

lemma initializer_ending (name : Token) (tokens : List Token) :
    (initializer stop name tokens).ending =
      match tokens with
      | [] => .read (.declare name none) [] []
      | equals :: rest =>
        if equals.isSymbol .equal then
          (expression stop rest).ending.bind fun initial rest' =>
            .read (.declare name (some initial)) [] rest'
        else .read (.declare name none) [] (equals :: rest) := by
  cases tokens with
  | nil => simp [initializer]
  | cons equals rest =>
      by_cases h : equals.isSymbol .equal <;> simp [initializer, h]

lemma variableDeclaration_ending (tokens : List Token) :
    (variableDeclaration stop tokens).ending =
      match tokens with
      | [] => .stuck ⟨stop, .variableName⟩ [] []
      | name :: rest =>
        if name.kind = .identifier then
          (initializer stop name rest).ending.bind
            (Ending.close stop .semicolon .semicolonAfterDeclaration)
        else .stuck ⟨name, .variableName⟩ [] (name :: rest) := by
  cases tokens with
  | nil => simp [variableDeclaration]
  | cons name rest =>
      by_cases h : name.kind = .identifier <;> simp [variableDeclaration, h]

lemma statement_ending (token : Token) (rest : List Token) :
    (statement stop token rest).ending =
      match token.kind with
      | .keyword .var => (variableDeclaration stop rest).ending
      | .keyword .print =>
        (expression stop rest).ending.bind fun value =>
          Ending.close stop .semicolon .semicolonAfterValue (.print value)
      | .symbol .leftBrace =>
        (block stop rest).ending.bind fun body rest' => .read (.block body) [] rest'
      | _ =>
        (expression stop (token :: rest)).ending.bind fun value =>
          Ending.close stop .semicolon .semicolonAfterExpression (.expression value) := by
  rw [statement]
  split <;> simp_all [Ending.bind_assoc]

lemma block_nil : (block stop []).ending = .stuck ⟨stop, .closingBrace⟩ [] [] := by
  simp [block]

lemma block_of_brace {token : Token} (h : token.isSymbol .rightBrace) (rest : List Token) :
    (block stop (token :: rest)).ending = .read [] [] rest := by
  simp [block, h]

lemma block_of_not_brace {token : Token} (h : ¬ token.isSymbol .rightBrace)
    (rest : List Token) :
    (block stop (token :: rest)).ending =
      ((block stop (declaration stop token rest).rest).ending.bind fun body rest' =>
        .read ((declaration stop token rest).statement?.toList ++ body) [] rest').after
          (declaration stop token rest).complaints := by
  rw [block, if_neg h]
  simp [declaration]

variable {stop}

lemma declaration_of_read {token : Token} {rest rest' : List Token} {result : Statement}
    {notes : List Complaint} (h : (statement stop token rest).ending = .read result notes rest') :
    (declaration stop token rest).statement? = some result ∧
      (declaration stop token rest).complaints = notes ∧
      (declaration stop token rest).rest = rest' := by
  rw [declaration]
  cases hs : statement stop token rest with
  | done => simp_all [recover]
  | failed => simp_all

lemma declaration_of_stuck {token : Token} {rest rest' : List Token} {cause : Complaint}
    {notes : List Complaint} (h : (statement stop token rest).ending = .stuck cause notes rest') :
    (declaration stop token rest).statement? = none ∧
      (declaration stop token rest).complaints = notes ++ [cause] ∧
      (declaration stop token rest).rest = resume rest' := by
  rw [declaration]
  cases hs : statement stop token rest with
  | done => simp_all
  | failed => simp_all [recover]

/-- A declaration about which there is no complaint was read. -/
lemma declaration_of_complaints {token : Token} {rest : List Token}
    (h : (declaration stop token rest).complaints = []) :
    ∃ result, (statement stop token rest).ending =
        .read result [] (declaration stop token rest).rest ∧
      (declaration stop token rest).statement? = some result := by
  cases hs : (statement stop token rest).ending with
  | read result notes rest' =>
      obtain ⟨hresult, hnotes, hrest⟩ := declaration_of_read hs
      rw [h] at hnotes
      exact ⟨result, by rw [hrest, ← hnotes], hresult⟩
  | stuck cause notes rest' =>
      have := (declaration_of_stuck hs).2.1
      simp [h] at this

variable (stop)

@[simp]
lemma declarations_nil : declarations stop [] = ([], []) := by
  simp [declarations]

lemma declarations_cons (token : Token) (rest : List Token) :
    declarations stop (token :: rest) =
      ((declaration stop token rest).statement?.toList ++
          (declarations stop (declaration stop token rest).rest).1,
        (declaration stop token rest).complaints ++
          (declarations stop (declaration stop token rest).rest).2) := by
  rw [declarations]

/-- **Induction over the rules of statements.** Only a block looks at other
statements: at its first one, and at the block that is left behind it. -/
theorem statement_induction {S : Token → List Token → Prop} {B : List Token → Prop}
    (plain : ∀ token rest, token.kind ≠ .symbol .leftBrace → S token rest)
    (brace : ∀ token rest, token.kind = .symbol .leftBrace → B rest → S token rest)
    (block_nil : B [])
    (block_end : ∀ token rest, token.isSymbol .rightBrace → B (token :: rest))
    (block_step : ∀ token rest, ¬ token.isSymbol .rightBrace → S token rest →
      B (declaration stop token rest).rest → B (token :: rest)) :
    (∀ token rest, S token rest) ∧ (∀ tokens, B tokens) := by
  apply statement.mutual_induct stop
  case case3 => exact brace
  case case5 => exact block_nil
  case case6 => exact block_end
  case case7 =>
      intro token rest h statement? complaints rest' shorter hd ih ih'
      refine block_step token rest h ih ?_
      rw [declaration, hd]
      exact ih'
  all_goals
    intros
    apply plain
    simp_all

/-- Induction over the declarations of a program. -/
theorem declarations_induction {D : List Token → Prop} (nil : D [])
    (cons : ∀ token rest, D (declaration stop token rest).rest → D (token :: rest))
    (tokens : List Token) : D tokens := by
  induction tokens using declarations.induct stop with
  | case1 => exact nil
  | case2 token rest _ _ _ _ hd ih =>
      refine cons token rest ?_
      rw [hd]
      exact ih

end Scriptlet.Grammar
