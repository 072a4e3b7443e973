import Scriptlet.Proofs.Grammar.Rules

/-!
The grammar as a relation between tokens and trees.

    program     := declaration* EOF
    declaration := "var" IDENTIFIER ( "=" expression )? ";" | statement
    statement   := "print" expression ";" | "{" declaration* "}" | expression ";"
    expression  := assignment
    assignment  := IDENTIFIER "=" assignment | equality
    equality    := comparison (("==" | "!=") comparison)*
    comparison  := term (("<" | "<=" | ">" | ">=") term)*
    term        := factor (("+" | "-") factor)*
    factor      := unary (("*" | "/") unary)*
    unary       := ("-" | "!") unary | primary
    primary     := "true" | "false" | "nil" | NUMBER | STRING | IDENTIFIER
                 | "(" expression ")"

A derivation covers tokens without a gap and says nothing about what stands
behind them. The relation looks at tokens only through their kinds, and at
numbers and strings also through their literals.

* `OperatorBefore`, `OperatorBetween`: the operator tokens of the rules above.
* `operatorBefore_iff`, `operatorBetween_iff`: they are the ones that are read.
* `Derives`, `Repeats`: expressions, and the repeated part of a binary level.
* `DerivesDeclaration`, `DerivesStatement`, `DerivesProgram`: the rest of the
  grammar.
* `Derives.inExpression`: phrases are made of tokens of expressions.
* `Derives.eq_singleton_of_read`: a bare variable is a single identifier.
-/

namespace Scriptlet.Grammar

/-! ### Expressions -/

/-- The rules of expressions. Equality, comparison, term and factor are the
levels of the binary operators. -/
inductive Phrase where
  | expression
  | assignment
  | level (p : Precedence)
  | unary
  | primary

/-- The rule for what stands between the operators of a level. -/
def Phrase.operand : Precedence → Phrase
  | .equality => .level .comparison
  | .comparison => .level .term
  | .term => .level .factor
  | .factor => .unary

/-- The tokens before an operand, and the operators that they are. -/
inductive OperatorBefore : Token.Kind → UnaryOp → Prop where
  /-- `unary := "-" unary` -/
  | negate : OperatorBefore (.symbol .minus) .negate
  /-- `unary := "!" unary` -/
  | not : OperatorBefore (.symbol .bang) .not

/-- The tokens between the operands of a level, and the operators that they are. -/
inductive OperatorBetween : Precedence → Token.Kind → BinaryOp → Prop where
  /-- `equality := comparison (("==" | "!=") comparison)*` -/
  | equal : OperatorBetween .equality (.symbol .equalEqual) .equal
  | notEqual : OperatorBetween .equality (.symbol .bangEqual) .notEqual
  /-- `comparison := term (("<" | "<=" | ">" | ">=") term)*` -/
  | less : OperatorBetween .comparison (.symbol .less) .less
  | lessEqual : OperatorBetween .comparison (.symbol .lessEqual) .lessEqual
  | greater : OperatorBetween .comparison (.symbol .greater) .greater
  | greaterEqual : OperatorBetween .comparison (.symbol .greaterEqual) .greaterEqual
  /-- `term := factor (("+" | "-") factor)*` -/
  | add : OperatorBetween .term (.symbol .plus) .add
  | sub : OperatorBetween .term (.symbol .minus) .sub
  /-- `factor := unary (("*" | "/") unary)*` -/
  | mul : OperatorBetween .factor (.symbol .star) .mul
  | div : OperatorBetween .factor (.symbol .slash) .div

/-- An operator of a level with the operand behind it. -/
structure Step where
  op : BinaryOp
  operator : Token
  right : Expr

/-- What has been read of a level so far becomes the left operand. -/
def Step.onto (left : Expr) (step : Step) : Expr :=
  .binary step.op step.operator left step.right

/-- The value that a number or string token carries. -/
inductive Carries (token : Token) : Value → Prop where
  | number {x : Float} (h : token.literal = some (.number x)) : Carries token (.number x)
  | string {text : String} (h : token.literal = some (.string text)) :
      Carries token (.string text)
  | none (h : token.literal = none) : Carries token .nil

mutual

/-- The tokens form a phrase under a rule, with the given tree. -/
inductive Derives : Phrase → List Token → Expr → Prop where
  /-- `expression := assignment` -/
  | expression {tokens : List Token} {tree : Expr} (h : Derives .assignment tokens tree) :
      Derives .expression tokens tree
  /-- `assignment := IDENTIFIER "=" assignment` -/
  | assign {name equals : Token} {tokens : List Token} {value : Expr}
      (hname : name.kind = .identifier) (hequals : equals.kind = .symbol .equal)
      (h : Derives .assignment tokens value) :
      Derives .assignment (name :: equals :: tokens) (.assign name value)
  /-- `assignment := equality` -/
  | equality {tokens : List Token} {tree : Expr} (h : Derives (.level .equality) tokens tree) :
      Derives .assignment tokens tree
  /-- A level is an operand and any number of steps, grouped to the left. -/
  | level {level : Precedence} {tokens more : List Token} {first : Expr} {steps : List Step}
      (h : Derives (.operand level) tokens first) (h' : Repeats level more steps) :
      Derives (.level level) (tokens ++ more) (steps.foldl Step.onto first)
  /-- `unary := ("-" | "!") unary` -/
  | unary {op : UnaryOp} {operator : Token} {tokens : List Token} {operand : Expr}
      (hop : OperatorBefore operator.kind op) (h : Derives .unary tokens operand) :
      Derives .unary (operator :: tokens) (.unary op operator operand)
  /-- `unary := primary` -/
  | primary {tokens : List Token} {tree : Expr} (h : Derives .primary tokens tree) :
      Derives .unary tokens tree
  /-- `primary := "true"` -/
  | trueWord {token : Token} (h : token.kind = .keyword .true) :
      Derives .primary [token] (.literal (.bool true))
  /-- `primary := "false"` -/
  | falseWord {token : Token} (h : token.kind = .keyword .false) :
      Derives .primary [token] (.literal (.bool false))
  /-- `primary := "nil"` -/
  | nilWord {token : Token} (h : token.kind = .keyword .nil) :
      Derives .primary [token] (.literal .nil)
  /-- `primary := NUMBER` -/
  | number {token : Token} {value : Value} (h : token.kind = .number)
      (h' : Carries token value) : Derives .primary [token] (.literal value)
  /-- `primary := STRING` -/
  | string {token : Token} {value : Value} (h : token.kind = .string)
      (h' : Carries token value) : Derives .primary [token] (.literal value)
  /-- `primary := IDENTIFIER` -/
  | identifier {token : Token} (h : token.kind = .identifier) :
      Derives .primary [token] (.read token)
  /-- `primary := "(" expression ")"` -/
  | grouping {left right : Token} {tokens : List Token} {inner : Expr}
      (hleft : left.kind = .symbol .leftParen) (hright : right.kind = .symbol .rightParen)
      (h : Derives .expression tokens inner) :
      Derives .primary (left :: tokens ++ [right]) (.grouping inner)

/-- The tokens form any number of steps of a level. -/
inductive Repeats : Precedence → List Token → List Step → Prop where
  | nil {level : Precedence} : Repeats level [] []
  | cons {level : Precedence} {op : BinaryOp} {operator : Token} {tokens more : List Token}
      {right : Expr} {steps : List Step} (hop : OperatorBetween level operator.kind op)
      (h : Derives (.operand level) tokens right) (h' : Repeats level more steps) :
      Repeats level (operator :: tokens ++ more) (⟨op, operator, right⟩ :: steps)

end

/-! ### Operators -/

/-- The operators before an operand are read as the grammar has them. -/
lemma operatorBefore_iff {kind : Token.Kind} {op : UnaryOp} :
    OperatorBefore kind op ↔ UnaryOp.ofKind? kind = some op := by
  constructor
  · rintro (_ | _) <;> rfl
  · intro h
    obtain rfl := UnaryOp.ofKind?_eq_some_iff.1 h
    cases op
    · exact .negate
    · exact .not

/-- The operators of each level are read as the grammar has them. -/
lemma operatorBetween_iff {level : Precedence} {kind : Token.Kind} {op : BinaryOp} :
    OperatorBetween level kind op ↔ BinaryOp.ofKindAt? level kind = some op := by
  constructor
  · intro h
    cases h <;> rfl
  · intro h
    obtain ⟨rfl, rfl⟩ := ofKindAt?_eq_some_iff.1 h
    cases op <;> constructor

lemma OperatorBefore.kind_eq {kind : Token.Kind} {op : UnaryOp} (h : OperatorBefore kind op) :
    kind = .symbol op.symbol :=
  UnaryOp.ofKind?_eq_some_iff.1 (operatorBefore_iff.1 h)

lemma OperatorBetween.kind_eq {level : Precedence} {kind : Token.Kind} {op : BinaryOp}
    (h : OperatorBetween level kind op) : kind = .symbol op.symbol :=
  (ofKindAt?_eq_some_iff.1 (operatorBetween_iff.1 h)).1

/-! ### Statements -/

mutual

/-- The tokens form a declaration. -/
inductive DerivesDeclaration : List Token → Statement → Prop where
  /-- `declaration := "var" IDENTIFIER ";"` -/
  | bare {word name semicolon : Token} (hword : word.kind = .keyword .var)
      (hname : name.kind = .identifier) (hsemicolon : semicolon.kind = .symbol .semicolon) :
      DerivesDeclaration [word, name, semicolon] (.declare name none)
  /-- `declaration := "var" IDENTIFIER "=" expression ";"` -/
  | initialized {word name equals semicolon : Token} {tokens : List Token} {initial : Expr}
      (hword : word.kind = .keyword .var) (hname : name.kind = .identifier)
      (hequals : equals.kind = .symbol .equal) (h : Derives .expression tokens initial)
      (hsemicolon : semicolon.kind = .symbol .semicolon) :
      DerivesDeclaration (word :: name :: equals :: tokens ++ [semicolon])
        (.declare name (some initial))
  /-- `declaration := statement` -/
  | statement {tokens : List Token} {tree : Statement} (h : DerivesStatement tokens tree) :
      DerivesDeclaration tokens tree

/-- The tokens form a statement. -/
inductive DerivesStatement : List Token → Statement → Prop where
  /-- `statement := "print" expression ";"` -/
  | print {word semicolon : Token} {tokens : List Token} {value : Expr}
      (hword : word.kind = .keyword .print) (h : Derives .expression tokens value)
      (hsemicolon : semicolon.kind = .symbol .semicolon) :
      DerivesStatement (word :: tokens ++ [semicolon]) (.print value)
  /-- `statement := "{" declaration* "}"` -/
  | block {left right : Token} {tokens : List Token} {body : List Statement}
      (hleft : left.kind = .symbol .leftBrace) (h : DerivesProgram tokens body)
      (hright : right.kind = .symbol .rightBrace) :
      DerivesStatement (left :: tokens ++ [right]) (.block body)
  /-- `statement := expression ";"` -/
  | expression {semicolon : Token} {tokens : List Token} {value : Expr}
      (h : Derives .expression tokens value) (hsemicolon : semicolon.kind = .symbol .semicolon) :
      DerivesStatement (tokens ++ [semicolon]) (.expression value)

/-- The tokens form any number of declarations: a program without its end
marker, or the inside of a block. -/
inductive DerivesProgram : List Token → List Statement → Prop where
  | nil : DerivesProgram [] []
  | cons {tokens more : List Token} {first : Statement} {others : List Statement}
      (h : DerivesDeclaration tokens first) (h' : DerivesProgram more others) :
      DerivesProgram (tokens ++ more) (first :: others)

end

/-! ### Tokens of phrases -/

mutual

/-- Phrases are made of tokens of expressions. -/
theorem Derives.inExpression {phrase : Phrase} {tokens : List Token} {tree : Expr} :
    Derives phrase tokens tree → ∀ token ∈ tokens, Grammar.inExpression token.kind
  | .expression h => h.inExpression
  | .assign hname hequals h => by
      simpa [hname, hequals, Grammar.inExpression] using h.inExpression
  | .equality h => h.inExpression
  | .level h h' => List.forall_mem_append.2 ⟨h.inExpression, h'.inExpression⟩
  | .unary hop h => by simpa [hop.kind_eq] using h.inExpression
  | .primary h => h.inExpression
  | .trueWord h => by simp [h, Grammar.inExpression]
  | .falseWord h => by simp [h, Grammar.inExpression]
  | .nilWord h => by simp [h, Grammar.inExpression]
  | .number h _ => by simp [h, Grammar.inExpression]
  | .string h _ => by simp [h, Grammar.inExpression]
  | .identifier h => by simp [h, Grammar.inExpression]
  | .grouping hleft hright h => by
      have inner := h.inExpression
      simp only [List.cons_append, List.forall_mem_cons, List.forall_mem_append, hleft, hright]
      exact ⟨rfl, inner, rfl, by simp⟩

theorem Repeats.inExpression {level : Precedence} {tokens : List Token} {steps : List Step} :
    Repeats level tokens steps → ∀ token ∈ tokens, Grammar.inExpression token.kind
  | .nil => by simp
  | .cons hop h h' => by
      have operand := h.inExpression
      have others := h'.inExpression
      simp only [List.cons_append, List.forall_mem_cons, List.forall_mem_append, hop.kind_eq]
      exact ⟨inExpression_binary _, operand, others⟩

end

/-- A phrase is not empty. -/
theorem Derives.ne_nil {phrase : Phrase} {tokens : List Token} {tree : Expr} :
    Derives phrase tokens tree → tokens ≠ []
  | .expression h => h.ne_nil
  | .assign .. => by simp
  | .equality h => h.ne_nil
  | .level h _ => by simp [h.ne_nil]
  | .unary .. => by simp
  | .primary h => h.ne_nil
  | .trueWord _ => by simp
  | .falseWord _ => by simp
  | .nilWord _ => by simp
  | .number .. => by simp
  | .string .. => by simp
  | .identifier _ => by simp
  | .grouping .. => by simp

lemma Repeats.eq_nil {level : Precedence} {tokens : List Token} :
    Repeats level tokens [] → tokens = []
  | .nil => rfl

/-- A level with an operator is no bare variable. -/
lemma eq_read_of_foldl_onto {steps : List Step} {first : Expr} {name : Token}
    (h : steps.foldl Step.onto first = .read name) : steps = [] ∧ first = .read name := by
  induction steps generalizing first with
  | nil => exact ⟨rfl, h⟩
  | cons step steps ih => cases (ih h).2

/-- A bare variable is a single identifier, under whatever rule it is derived. -/
theorem Derives.eq_singleton_of_read {phrase : Phrase} {tokens : List Token} {tree : Expr}
    {name : Token} :
    Derives phrase tokens tree → tree = .read name → tokens = [name] ∧ name.kind = .identifier
  | .expression h, ht => h.eq_singleton_of_read ht
  | .assign .., ht => by cases ht
  | .equality h, ht => h.eq_singleton_of_read ht
  | .level h h', ht => by
      obtain ⟨rfl, hfirst⟩ := eq_read_of_foldl_onto ht
      obtain ⟨rfl, hname⟩ := h.eq_singleton_of_read hfirst
      simp [h'.eq_nil, hname]
  | .unary .., ht => by cases ht
  | .primary h, ht => h.eq_singleton_of_read ht
  | .trueWord _, ht => by cases ht
  | .falseWord _, ht => by cases ht
  | .nilWord _, ht => by cases ht
  | .number .., ht => by cases ht
  | .string .., ht => by cases ht
  | .identifier h, ht => by
      cases ht
      exact ⟨rfl, h⟩
  | .grouping .., ht => by cases ht

end Scriptlet.Grammar
