import Scriptlet.Proofs.Grammar.Exact
import Scriptlet.Proofs.Grammar.Locality
import Scriptlet.Proofs.Grammar.WellFormed

/-!
Programs written back as tokens.

A tree keeps the tokens of its operators and names. The other tokens are those that the
grammar asks for, and a literal is a token of its kind. What is written for a well-formed
tree is derivable as that tree: an operand that binds as tightly as it should is a phrase
of the rule that it stands for. So a program that was read, from whatever tokens, is read
again from what is written for it, and without a complaint.

* `Expr.tokens`, `Statement.tokens`: what is written for a tree.
* `Derives.mono`: phrases climb the ladder of precedence.
* `Derives.step`: a level goes on with an operator and an operand.
* `Expr.WellFormed.derives`, `Statement.derivesProgram`: well-formed trees are derivable.
* `program_rereads`: every program that is read.
-/

namespace Scriptlet

/-! ### Writing -/

/-- The symbol as a token. -/
def Symbol.token (s : Symbol) : Token := ⟨.symbol s, String.ofList s.chars, none, .start⟩

/-- The keyword as a token. -/
def Keyword.token (k : Keyword) : Token := ⟨.keyword k, k.word, none, .start⟩

/-- The literal as a token of its kind. -/
def Value.token : Value → Token
  | nil => Keyword.nil.token
  | bool true => Keyword.true.token
  | bool false => Keyword.false.token
  | number value => ⟨.number, numberFormat.text value, some (.number value), .start⟩
  | string text => ⟨.string, "\"" ++ text ++ "\"", some (.string text), .start⟩

/-- What is written for an expression. -/
def Expr.tokens : Expr → List Token
  | .literal value => [value.token]
  | .grouping inner => Symbol.leftParen.token :: inner.tokens ++ [Symbol.rightParen.token]
  | .unary _ operator operand => operator :: operand.tokens
  | .binary _ operator left right => left.tokens ++ operator :: right.tokens
  | .read name => [name]
  | .assign name value => name :: Symbol.equal.token :: value.tokens

mutual

/-- What is written for a statement. -/
def Statement.tokens : Statement → List Token
  | .expression expr => expr.tokens ++ [Symbol.semicolon.token]
  | .print expr => Keyword.print.token :: expr.tokens ++ [Symbol.semicolon.token]
  | .declare name none => [Keyword.var.token, name, Symbol.semicolon.token]
  | .declare name (some initial) =>
    Keyword.var.token :: name :: Symbol.equal.token :: initial.tokens ++ [Symbol.semicolon.token]
  | .block body =>
    Symbol.leftBrace.token :: Statement.tokensAll body ++ [Symbol.rightBrace.token]

/-- What is written for statements one after another. -/
def Statement.tokensAll : List Statement → List Token
  | [] => []
  | statement :: rest => statement.tokens ++ Statement.tokensAll rest

end

namespace Grammar

/-! ### The ladder of precedence -/

namespace Phrase

/-- The rule whose phrases stand for a phrase of the given rule by themselves. -/
def tighter? : Phrase → Option Phrase
  | .primary => none
  | .unary => some .primary
  | .level p => some (.operand p)
  | .assignment => some (.level .equality)
  | .expression => some .assignment

lemma rank_of_tighter? {rule tighter : Phrase} (h : rule.tighter? = some tighter) :
    rule.rank = tighter.rank + 1 := by
  cases rule with
  | level p =>
      cases h
      exact rank_operand p
  | expression | assignment | unary | primary => cases h <;> rfl

/-- Only primary phrases have no tighter rule. -/
lemma rank_of_tighter?_eq_none {rule : Phrase} (h : rule.tighter? = none) : rule.rank = 0 := by
  cases rule <;> first | rfl | cases h

lemma rank_injective {rule rule' : Phrase} (h : rule.rank = rule'.rank) : rule = rule' := by
  rcases rule with _ | _ | ⟨_ | _ | _ | _⟩ | _ | _ <;>
    rcases rule' with _ | _ | ⟨_ | _ | _ | _⟩ | _ | _ <;>
    first | rfl | exact absurd h (by decide)

end Phrase

variable {tokens more : List Token} {tree left right : Expr}

/-- A phrase is one of the next looser rule, too. -/
lemma Derives.loosen {rule tighter : Phrase} (h : Derives tighter tokens tree)
    (hrule : rule.tighter? = some tighter) : Derives rule tokens tree := by
  cases rule with
  | expression =>
      cases hrule
      exact .expression h
  | assignment =>
      cases hrule
      exact .equality h
  | level p =>
      cases hrule
      have hlevel := Derives.level h .nil
      rwa [List.append_nil] at hlevel
  | unary =>
      cases hrule
      exact .primary h
  | primary => cases hrule

/-- **A phrase is one of every looser rule.** -/
theorem Derives.mono {rule rule' : Phrase} (h : Derives rule tokens tree)
    (hrank : rule.rank ≤ rule'.rank) : Derives rule' tokens tree := by
  obtain ⟨steps, hsteps⟩ := Nat.exists_eq_add_of_le hrank
  -- the induction is on the number of steps down to the rule of the phrase
  induction steps generalizing rule' with
  | zero => rwa [Phrase.rank_injective hsteps]
  | succ steps ih =>
      cases htighter : rule'.tighter? with
      | none =>
          have := Phrase.rank_of_tighter?_eq_none htighter
          omega
      | some tighter =>
          have := Phrase.rank_of_tighter? htighter
          exact (ih (by omega) (by omega)).loosen htighter

/-! ### Operators of a level -/

lemma Repeats.append {level : Precedence} {tokens : List Token} {steps steps' : List Step} :
    Repeats level tokens steps → Repeats level more steps' →
      Repeats level (tokens ++ more) (steps ++ steps')
  | .nil, h => h
  | .cons hop hright hsteps, h => by
      rw [List.append_assoc]
      exact .cons hop hright (hsteps.append h)

/-- A level goes on with an operator and an operand. -/
lemma Derives.step {level : Precedence} {op : BinaryOp} {operator : Token}
    (hleft : Derives (.level level) tokens left) (hop : OperatorBetween level operator.kind op)
    (hright : Derives (.operand level) more right) :
    Derives (.level level) (tokens ++ operator :: more) (.binary op operator left right) := by
  cases hleft with
  | level hfirst hsteps =>
      have hlast := Repeats.cons hop hright .nil
      rw [List.append_nil] at hlast
      have hall := Derives.level hfirst (hsteps.append hlast)
      rw [List.foldl_append, ← List.append_assoc] at hall
      exact hall

/-! ### Well-formed trees are derivable -/

lemma derives_token (value : Value) : Derives .primary [value.token] (.literal value) := by
  cases value with
  | nil => exact .nilWord rfl
  | bool value =>
      cases value with
      | true => exact .trueWord rfl
      | false => exact .falseWord rfl
  | number value => exact .number rfl (.number rfl)
  | string text => exact .string rfl (.string rfl)

/-- Nothing binds more loosely than an assignment. -/
lemma rank_phrase_le (expr : Expr) : expr.phrase.rank ≤ Phrase.assignment.rank := by
  cases expr with
  | binary op operator left right => cases op <;> simp [Expr.phrase, Phrase.rank]
  | literal | grouping | unary | read | assign => simp [Expr.phrase, Phrase.rank]

end Grammar

open Grammar

/-- **What is written for a well-formed expression is derivable** by the rule of its
outermost node. -/
theorem Expr.WellFormed.derives {expr : Expr} (h : expr.WellFormed) :
    Derives expr.phrase expr.tokens expr := by
  induction expr with
  | literal value => exact derives_token value
  | grouping inner ih =>
      have hinner : Derives .assignment inner.tokens inner := (ih h).mono (rank_phrase_le inner)
      exact .grouping rfl rfl (.expression hinner)
  | unary op operator operand ih =>
      obtain ⟨hop, hrank, hoperand⟩ := h
      exact .unary hop ((ih hoperand).mono hrank)
  | binary op operator left right ihleft ihright =>
      obtain ⟨level, hop, ⟨hleft, hleft'⟩, hright, hright'⟩ := h
      rw [Phrase.rank_operand, Nat.lt_succ_iff] at hright
      rw [Expr.phrase_binary hop]
      exact ((ihleft hleft').mono hleft).step hop ((ihright hright').mono hright)
  | read name => exact .identifier h
  | assign name value ih =>
      obtain ⟨hname, hvalue⟩ := h
      exact .assign hname rfl ((ih hvalue).mono (rank_phrase_le value))

lemma Expr.WellFormed.derives_expression {expr : Expr} (h : expr.WellFormed) :
    Derives .expression expr.tokens expr :=
  .expression (h.derives.mono (rank_phrase_le expr))

mutual

/-- What is written for a well-formed statement is derivable. -/
theorem Statement.derivesDeclaration :
    ∀ statement : Statement, statement.WellFormed →
      DerivesDeclaration statement.tokens statement
  | .expression _, h => .statement (.expression h.derives_expression rfl)
  | .print _, h => .statement (.print rfl h.derives_expression rfl)
  | .declare _ none, h => .bare rfl h.1 rfl
  | .declare _ (some initial), h =>
      .initialized rfl h.1 rfl (h.2 initial rfl).derives_expression rfl
  | .block body, h => .statement (.block rfl (derivesProgram body h) rfl)

/-- **What is written for a well-formed program is derivable.** -/
theorem Statement.derivesProgram :
    ∀ program : List Statement, Statement.AllWellFormed program →
      DerivesProgram (Statement.tokensAll program) program
  | [], _ => .nil
  | statement :: rest, h =>
      .cons (derivesDeclaration statement h.1) (derivesProgram rest h.2)

end

/-! ### Reading again -/

namespace Grammar

/-- A token that a rule asks for is no end marker. -/
lemma not_isEnd_of_kind {token : Token} {kind : Token.Kind} (h : token.kind = kind)
    (hkind : kind ≠ .endOfInput) : ¬ token.isEnd := by
  rw [Token.isEnd, h, beq_iff_eq]
  exact hkind

lemma Derives.not_isEnd {phrase : Phrase} {tokens : List Token} {tree : Expr}
    (h : Derives phrase tokens tree) : ∀ token ∈ tokens, ¬ token.isEnd := by
  intro token htoken
  refine not_isEnd_of_kind rfl ?_
  intro hkind
  have hin := h.inExpression token htoken
  rw [hkind] at hin
  cases hin

mutual

theorem DerivesDeclaration.not_isEnd {tokens : List Token} {tree : Statement} :
    DerivesDeclaration tokens tree → ∀ token ∈ tokens, ¬ token.isEnd
  | .bare hword hname hsemicolon => by
      simp only [List.forall_mem_cons]
      exact ⟨not_isEnd_of_kind hword (by decide), not_isEnd_of_kind hname (by decide),
        not_isEnd_of_kind hsemicolon (by decide), List.forall_mem_nil _⟩
  | .initialized hword hname hequals h hsemicolon => by
      simp only [List.cons_append, List.forall_mem_cons, List.forall_mem_append]
      exact ⟨not_isEnd_of_kind hword (by decide), not_isEnd_of_kind hname (by decide),
        not_isEnd_of_kind hequals (by decide), h.not_isEnd,
        not_isEnd_of_kind hsemicolon (by decide), List.forall_mem_nil _⟩
  | .statement h => h.not_isEnd

theorem DerivesStatement.not_isEnd {tokens : List Token} {tree : Statement} :
    DerivesStatement tokens tree → ∀ token ∈ tokens, ¬ token.isEnd
  | .print hword h hsemicolon => by
      simp only [List.cons_append, List.forall_mem_cons, List.forall_mem_append]
      exact ⟨not_isEnd_of_kind hword (by decide), h.not_isEnd,
        not_isEnd_of_kind hsemicolon (by decide), List.forall_mem_nil _⟩
  | .block hleft h hright => by
      simp only [List.cons_append, List.forall_mem_cons, List.forall_mem_append]
      exact ⟨not_isEnd_of_kind hleft (by decide), h.not_isEnd,
        not_isEnd_of_kind hright (by decide), List.forall_mem_nil _⟩
  | .expression h hsemicolon => by
      simp only [List.forall_mem_cons, List.forall_mem_append]
      exact ⟨h.not_isEnd, not_isEnd_of_kind hsemicolon (by decide), List.forall_mem_nil _⟩

/-- No end marker is part of a program. -/
theorem DerivesProgram.not_isEnd {tokens : List Token} {program : List Statement} :
    DerivesProgram tokens program → ∀ token ∈ tokens, ¬ token.isEnd
  | .nil => List.forall_mem_nil _
  | .cons h h' => List.forall_mem_append.2 ⟨h.not_isEnd, h'.not_isEnd⟩

end

end Grammar

/-- A derivable program is read as it is, with or without an end marker behind its tokens. -/
lemma Parse.ofTokens_of_derivesProgram {tokens : List Token} {program : List Statement}
    (h : DerivesProgram tokens program) (marker : Option Position) :
    ofTokens (tokens ++ (marker.map Token.endOfInput).toList) = ⟨program, []⟩ := by
  have hmarker : (marker.map Token.endOfInput).toList.takeWhile (!·.isEnd) = [] := by
    cases marker <;> rfl
  rw [ofTokens, takeWhile_append_of_forall h.not_isEnd, hmarker, List.append_nil, h.declarations]

/-- **Every program that is read is well formed and is read again from its own tokens.**
Whatever tokens a program is read from, its operators are those of their tokens, its operands
keep to the ladder of precedence, its names are identifiers, and assignments stand where the
grammar has them. What is written for it is a program of the grammar, and is read without a
complaint as the very same program. -/
theorem program_rereads (tokens : List Token) :
    let program := (Parse.ofTokens tokens).program
    (∀ statement ∈ program, statement.WellFormed) ∧
    DerivesProgram (Statement.tokensAll program) program ∧
    ∀ marker : Option Position,
      Parse.ofTokens (Statement.tokensAll program ++ (marker.map Token.endOfInput).toList) =
        ⟨program, []⟩ := by
  intro program
  have hwell := Parse.ofTokens_wellFormed tokens
  have hderives := Statement.derivesProgram program hwell
  exact ⟨Statement.allWellFormed_iff.1 hwell, hderives, Parse.ofTokens_of_derivesProgram hderives⟩

end Scriptlet
