import Scriptlet.Grammar.Program
import Scriptlet.Proofs.Grammar.Derivation

/-!
Programs that keep to the grammar, whatever they were read from.

A tree is well formed if its operators fit their tokens, its operands bind as tightly as
the operators ask, and its names are identifiers. An assignment binds most loosely of all,
so it is never an operand. What is read is well formed even if there were complaints: a
mistake takes a phrase away as a whole, and leaves no phrase in a place that is not its own.

* `Phrase.rank`, `Expr.phrase`: the ladder of precedence, and the rule of an expression.
* `Expr.WellFormed`, `Statement.WellFormed`: trees that keep to the grammar.
* `Ending.Gives`: what is said of a phrase if it is read.
* `Grammar.rules_wellFormed`, `Grammar.statements_wellFormed`: what the rules read.
* `Parse.ofTokens_wellFormed`: programs.
-/

namespace Scriptlet

/-! ### Well-formed trees -/

/-- The place of a rule on the ladder of precedence, from the tightest on. -/
def Grammar.Phrase.rank : Phrase → Nat
  | .primary => 0
  | .unary => 1
  | .level .factor => 2
  | .level .term => 3
  | .level .comparison => 4
  | .level .equality => 5
  | .assignment => 6
  | .expression => 7

/-- The operands of a level are one step tighter. -/
lemma Grammar.Phrase.rank_operand (p : Precedence) :
    (Phrase.level p).rank = (Phrase.operand p).rank + 1 := by
  cases p <;> rfl

open Grammar (Phrase OperatorBefore OperatorBetween)

namespace Expr

/-- The rule that the outermost node of an expression belongs to. -/
def phrase : Expr → Phrase
  | .literal _ | .grouping _ | .read _ => .primary
  | .unary .. => .unary
  | .binary .equal .. | .binary .notEqual .. => .level .equality
  | .binary .less .. | .binary .lessEqual .. => .level .comparison
  | .binary .greater .. | .binary .greaterEqual .. => .level .comparison
  | .binary .add .. | .binary .sub .. => .level .term
  | .binary .mul .. | .binary .div .. => .level .factor
  | .assign .. => .assignment

/-- An operator of a level makes a phrase of this level. -/
lemma phrase_binary {level : Precedence} {kind : Token.Kind} {op : BinaryOp}
    (h : OperatorBetween level kind op) (operator : Token) (left right : Expr) :
    (Expr.binary op operator left right).phrase = .level level := by
  cases h <;> rfl

/-- Operators are those of their tokens. A left operand binds as tightly as the level of its
operator or more so, a right one more tightly, and one behind an operator is unary or primary.
Names are identifiers. -/
def WellFormed : Expr → Prop
  | .literal _ => True
  | .grouping inner => inner.WellFormed
  | .unary op operator operand =>
    OperatorBefore operator.kind op ∧
      operand.phrase.rank ≤ Phrase.unary.rank ∧ operand.WellFormed
  | .binary op operator left right =>
    ∃ level, OperatorBetween level operator.kind op ∧
      (left.phrase.rank ≤ (Phrase.level level).rank ∧ left.WellFormed) ∧
      right.phrase.rank < (Phrase.level level).rank ∧ right.WellFormed
  | .read name => name.kind = .identifier
  | .assign name value => name.kind = .identifier ∧ value.WellFormed

/-- A well-formed expression that may stand where a phrase of a rule is asked for. -/
def Fits (rule : Phrase) (expr : Expr) : Prop :=
  expr.phrase.rank ≤ rule.rank ∧ expr.WellFormed

lemma Fits.mono {rule rule' : Phrase} {expr : Expr} (h : expr.Fits rule)
    (hrank : rule.rank ≤ rule'.rank) : expr.Fits rule' :=
  ⟨Nat.le_trans h.1 hrank, h.2⟩

/-- An operator of a level joins what has been read of the level and an operand. -/
lemma fits_binary {level : Precedence} {op : BinaryOp} {operator : Token} {left right : Expr}
    (hop : OperatorBetween level operator.kind op) (hleft : left.Fits (.level level))
    (hright : right.Fits (.operand level)) :
    (Expr.binary op operator left right).Fits (.level level) := by
  have hphrase := congrArg Phrase.rank (phrase_binary hop operator left right)
  refine ⟨Nat.le_of_eq hphrase, level, hop, hleft, ?_, hright.2⟩
  rw [Phrase.rank_operand]
  exact Nat.lt_succ_of_le hright.1

end Expr

mutual

/-- The expressions of the statement are well formed, and so are the names that it
declares. -/
def Statement.WellFormed : Statement → Prop
  | .expression expr => expr.WellFormed
  | .print expr => expr.WellFormed
  | .declare name initial => name.kind = .identifier ∧ ∀ expr ∈ initial, expr.WellFormed
  | .block body => Statement.AllWellFormed body

/-- All statements are well formed. -/
def Statement.AllWellFormed : List Statement → Prop
  | [] => True
  | statement :: rest => statement.WellFormed ∧ Statement.AllWellFormed rest

end

lemma Statement.allWellFormed_iff {program : List Statement} :
    AllWellFormed program ↔ ∀ statement ∈ program, statement.WellFormed := by
  induction program with
  | nil => simp [AllWellFormed]
  | cons statement rest ih => simp [AllWellFormed, ih]

lemma Statement.AllWellFormed.append {program more : List Statement}
    (h : AllWellFormed program) (h' : AllWellFormed more) : AllWellFormed (program ++ more) := by
  rw [allWellFormed_iff] at h h' ⊢
  exact List.forall_mem_append.2 ⟨h, h'⟩

/-! ### What rules give -/

namespace Ending

variable {α β : Type} {p : α → Prop} {q : β → Prop}

/-- If a phrase is read, then it is as `p` says. -/
def Gives (p : α → Prop) : Ending α → Prop
  | read value _ _ => p value
  | stuck .. => True

lemma gives_after {earlier : List Complaint} {e : Ending α} :
    (e.after earlier).Gives p ↔ e.Gives p := by
  cases e <;> rfl

lemma Gives.mono {p' : α → Prop} {e : Ending α} (h : e.Gives p)
    (himp : ∀ value, p value → p' value) : e.Gives p' := by
  cases e with
  | read value notes rest => exact himp value h
  | stuck cause notes rest => trivial

/-- Two rules, one behind the other. -/
lemma Gives.bind {e : Ending α} {next : α → List Token → Ending β} (h : e.Gives p)
    (hnext : ∀ value notes rest, e = read value notes rest → p value →
      (next value rest).Gives q) : (e.bind next).Gives q := by
  cases e with
  | read value notes rest => exact gives_after.2 (hnext value notes rest rfl h)
  | stuck cause notes rest => trivial

lemma gives_close {stop : Token} {symbol : Symbol} {missing : Expectation} {value : α}
    (h : p value) (tokens : List Token) : (close stop symbol missing value tokens).Gives p := by
  cases tokens with
  | nil => trivial
  | cons token tokens =>
      rw [close]
      split
      · exact h
      · trivial

/-- A phrase that has to be followed by a symbol. -/
lemma Gives.bind_close {stop : Token} {symbol : Symbol} {missing : Expectation} {e : Ending α}
    {f : α → β} (h : e.Gives p) (hf : ∀ value, p value → q (f value)) :
    (e.bind fun value => close stop symbol missing (f value)).Gives q :=
  h.bind fun value _ rest _ hvalue => gives_close (hf value hvalue) rest

end Ending

namespace Grammar

/-! ### Expressions -/

/-- An assignment, or the phrase that is kept without it. -/
lemma assignment_wellFormed {equals : Token} {target value : Expr} (htarget : target.WellFormed)
    (hvalue : value.WellFormed) : (assignment equals target value).1.WellFormed := by
  cases target with
  | read name => exact ⟨htarget, hvalue⟩
  | literal | grouping | unary | binary | assign => exact htarget

lemma atom?_fits {token : Token} {phrase : Expr} (h : atom? token = some phrase) :
    phrase.Fits .primary := by
  rw [atom?] at h
  split at h <;> cases h
  case h_6 hkind => exact ⟨Nat.le_refl _, hkind⟩
  all_goals exact ⟨Nat.le_refl _, trivial⟩

variable (stop : Token)

/-- **What the rules of expressions read is well formed**, with or without notes, and binds
as tightly as the rule says. -/
theorem rules_wellFormed :
    (∀ tokens, (expression stop tokens).ending.Gives Expr.WellFormed) ∧
    (∀ level tokens, (binary stop level tokens).ending.Gives (Expr.Fits (.level level))) ∧
    (∀ level left tokens, left.Fits (.level level) →
      (chain stop level left tokens).ending.Gives (Expr.Fits (.level level))) ∧
    (∀ level tokens, (operand stop level tokens).ending.Gives (Expr.Fits (.operand level))) ∧
    (∀ tokens, (unary stop tokens).ending.Gives (Expr.Fits .unary)) ∧
    (∀ token rest, (primary stop token rest).ending.Gives (Expr.Fits .primary)) := by
  refine rule_induction stop ?expression ?binary ?chain_nil ?chain_end ?chain_step
    ?operand_tighter ?operand_unary ?unary_nil ?unary_operator ?unary_primary ?primary_paren
    ?primary_atom ?primary_other
  case expression =>
      intro tokens ihtarget ihvalue
      rw [expression_ending]
      refine ihtarget.bind ?_
      intro target notes behind htarget hfits
      cases behind with
      | nil => exact hfits.2
      | cons equals rest =>
          rw [behindTarget]
          split
          case isTrue hequals =>
              refine (ihvalue target notes equals rest htarget hequals).bind ?_
              intro value _ _ _ hvalue
              exact assignment_wellFormed hfits.2 hvalue
          case isFalse => exact hfits.2
  case binary =>
      intro level tokens ihleft ihchain
      rw [binary_ending]
      refine ihleft.bind ?_
      intro left notes rest hleft hfits
      refine ihchain left notes rest hleft (hfits.mono ?_)
      rw [Phrase.rank_operand]
      exact Nat.le_succ _
  case chain_nil =>
      intro level left hleft
      rw [chain_nil]
      exact hleft
  case chain_end =>
      intro level left operator rest hop hleft
      rw [chain_of_none stop hop]
      exact hleft
  case chain_step =>
      intro level left operator rest op hop ihright ihchain hleft
      rw [chain_of_some stop hop]
      refine ihright.bind ?_
      intro right notes rest' hright hfits
      have hjoined := Expr.fits_binary (operatorBetween_iff.2 hop) hleft hfits
      exact ihchain right notes rest' hright hjoined
  case operand_tighter =>
      intro level tighter tokens htighter ih
      rw [operand_of_some stop htighter]
      cases level <;> cases htighter <;> exact ih
  case operand_unary =>
      intro level tokens htighter ih
      rw [operand_of_none stop htighter]
      cases level <;> cases htighter
      exact ih
  case unary_nil =>
      rw [unary_nil]
      trivial
  case unary_operator =>
      intro operator rest op hop ih
      rw [unary_of_some stop hop]
      refine ih.bind ?_
      intro operand _ _ _ hoperand
      exact ⟨Nat.le_refl _, operatorBefore_iff.2 hop, hoperand⟩
  case unary_primary =>
      intro token rest hop ih
      rw [unary_of_none stop hop]
      exact ih.mono fun phrase hfits => hfits.mono (Nat.zero_le _)
  case primary_paren =>
      intro token rest htoken ih
      rw [primary_of_paren stop htoken]
      exact ih.bind_close fun inner hinner => ⟨Nat.le_refl _, hinner⟩
  case primary_atom =>
      intro token rest phrase hatom
      rw [primary_of_some stop hatom]
      exact atom?_fits hatom
  case primary_other =>
      intro token rest hatom hparen
      rw [primary_of_none stop hatom hparen]
      trivial

lemma expression_wellFormed (tokens : List Token) :
    (expression stop tokens).ending.Gives Expr.WellFormed :=
  (rules_wellFormed stop).1 tokens

/-! ### Statements -/

lemma initializer_wellFormed {name : Token} (hname : name.kind = .identifier)
    (tokens : List Token) : (initializer stop name tokens).ending.Gives Statement.WellFormed := by
  have hbare : (Statement.declare name none).WellFormed :=
    ⟨hname, fun _ hexpr => nomatch hexpr⟩
  rw [initializer_ending]
  cases tokens with
  | nil => exact hbare
  | cons equals rest =>
      dsimp only
      split
      case isTrue =>
          refine (expression_wellFormed stop rest).bind ?_
          rintro initial _ _ _ hinitial
          refine ⟨hname, ?_⟩
          rintro _ ⟨⟩
          exact hinitial
      case isFalse => exact hbare

lemma variableDeclaration_wellFormed (tokens : List Token) :
    (variableDeclaration stop tokens).ending.Gives Statement.WellFormed := by
  rw [variableDeclaration_ending]
  cases tokens with
  | nil => trivial
  | cons name rest =>
      dsimp only
      split
      case isTrue hname => exact (initializer_wellFormed stop hname rest).bind_close fun _ h => h
      case isFalse => trivial

variable {stop} in
/-- A declaration is left out or is what its rule gives. -/
lemma declaration_wellFormed {token : Token} {rest : List Token}
    (h : (statement stop token rest).ending.Gives Statement.WellFormed) :
    Statement.AllWellFormed (declaration stop token rest).statement?.toList := by
  cases hending : (statement stop token rest).ending with
  | read result notes rest' =>
      obtain ⟨hresult, -, -⟩ := declaration_of_read hending
      rw [hending] at h
      rw [hresult]
      exact ⟨h, trivial⟩
  | stuck cause notes rest' =>
      obtain ⟨hresult, -, -⟩ := declaration_of_stuck hending
      rw [hresult]
      trivial

/-- **What the rules of statements read is well formed**: a block goes on without the
declarations that do not fit the grammar. -/
theorem statements_wellFormed :
    (∀ token rest, (statement stop token rest).ending.Gives Statement.WellFormed) ∧
    ∀ tokens, (block stop tokens).ending.Gives Statement.AllWellFormed := by
  refine statement_induction stop ?plain ?brace ?block_nil ?block_end ?block_step
  case plain =>
      intro token rest hbrace
      rw [statement_ending]
      split
      · exact variableDeclaration_wellFormed stop rest
      · exact (expression_wellFormed stop rest).bind_close fun _ h => h
      · exact absurd ‹_› hbrace
      · exact (expression_wellFormed stop (token :: rest)).bind_close fun _ h => h
  case brace =>
      intro token rest hbrace ih
      rw [statement_ending, hbrace]
      exact ih.bind fun _ _ _ _ hbody => hbody
  case block_nil =>
      rw [block_nil]
      trivial
  case block_end =>
      intro token rest hbrace
      rw [block_of_brace stop hbrace]
      trivial
  case block_step =>
      intro token rest hbrace ih ihblock
      rw [block_of_not_brace stop hbrace, Ending.gives_after]
      exact ihblock.bind fun _ _ _ _ hbody => (declaration_wellFormed ih).append hbody

theorem declarations_wellFormed (tokens : List Token) :
    Statement.AllWellFormed (declarations stop tokens).1 := by
  induction tokens using declarations_induction stop with
  | nil =>
      rw [declarations_nil]
      trivial
  | cons token rest ih =>
      rw [declarations_cons]
      exact (declaration_wellFormed ((statements_wellFormed stop).1 token rest)).append ih

end Grammar

/-- **Every program that is read is well formed**, whatever the tokens are. -/
theorem Parse.ofTokens_wellFormed (tokens : List Token) :
    Statement.AllWellFormed (ofTokens tokens).program :=
  Grammar.declarations_wellFormed _ _

end Scriptlet
