import Scriptlet.Proofs.Grammar.Exact
import Scriptlet.Proofs.Grammar.Locality
import Scriptlet.Proofs.Grammar.WellFormed

/-!
How many statements tokens can write.

Every statement ends with a semicolon or a closing brace, and no expression takes one of
them. So tokens write at most as many statements as there are such tokens among them, where
those inside blocks are counted, too, and exactly as many if there is no complaint.

* `Token.closes`, `Statement.count`: the tokens that end statements, and statements with
  those inside them.
* `DerivesProgram.countP_closes`: the statements of tokens that are in the grammar.
* `countAll_declarations_le`: the statements of any tokens.
-/

namespace Scriptlet

/-- Tokens of this kind end statements. -/
def Token.Kind.closes : Token.Kind → Bool
  | .symbol .semicolon | .symbol .rightBrace => true
  | _ => false

/-- The token ends a statement. -/
def Token.closes (t : Token) : Bool := t.kind.closes

lemma Token.closes_iff {t : Token} :
    t.closes ↔ t.kind = .symbol .semicolon ∨ t.kind = .symbol .rightBrace := by
  rw [closes]
  unfold Kind.closes
  split <;> simp_all

namespace Statement

mutual

/-- A statement and all statements inside it. -/
def count : Statement → Nat
  | expression _ | print _ | declare _ _ => 1
  | block body => countAll body + 1

/-- All statements of a program and inside them. -/
def countAll : List Statement → Nat
  | [] => 0
  | statement :: rest => statement.count + countAll rest

end

lemma countAll_append (program more : List Statement) :
    countAll (program ++ more) = countAll program + countAll more := by
  induction program with
  | nil => rw [List.nil_append, countAll, Nat.zero_add]
  | cons statement rest ih => rw [List.cons_append, countAll, countAll, ih, Nat.add_assoc]

end Statement

namespace Grammar

/-! ### Programs of the grammar -/

lemma not_closes_of_inExpression {t : Token} (h : inExpression t.kind) : ¬ t.closes := by
  rw [Token.closes_iff]
  rintro (hkind | hkind) <;> rw [hkind] at h <;> cases h

lemma Derives.countP_closes {phrase : Phrase} {tokens : List Token} {tree : Expr}
    (h : Derives phrase tokens tree) : tokens.countP Token.closes = 0 := by
  rw [List.countP_eq_zero]
  exact fun token htoken => not_closes_of_inExpression (h.inExpression token htoken)

mutual

theorem DerivesDeclaration.countP_closes {tokens : List Token} {tree : Statement} :
    DerivesDeclaration tokens tree → tokens.countP Token.closes = tree.count
  | .bare hword hname hsemicolon => by
      simp [Token.closes, hword, hname, hsemicolon, Token.Kind.closes, Statement.count]
  | .initialized hword hname hequals h hsemicolon => by
      have hexpr := h.countP_closes
      simp [Token.closes, hword, hname, hequals, hsemicolon, Token.Kind.closes, Statement.count,
        hexpr]
  | .statement h => h.countP_closes

theorem DerivesStatement.countP_closes {tokens : List Token} {tree : Statement} :
    DerivesStatement tokens tree → tokens.countP Token.closes = tree.count
  | .print hword h hsemicolon => by
      have hexpr := h.countP_closes
      simp [Token.closes, hword, hsemicolon, Token.Kind.closes, Statement.count, hexpr]
  | .block hleft h hright => by
      have hbody := h.countP_closes
      simp [Token.closes, hleft, hright, Token.Kind.closes, Statement.count, hbody]
  | .expression h hsemicolon => by
      have hexpr := h.countP_closes
      simp [Token.closes, hsemicolon, Token.Kind.closes, Statement.count, hexpr]

/-- **Tokens of the grammar** have one closing token for each statement. -/
theorem DerivesProgram.countP_closes {tokens : List Token} {program : List Statement} :
    DerivesProgram tokens program →
      tokens.countP Token.closes = Statement.countAll program
  | .nil => rfl
  | .cons h h' => by
      rw [List.countP_append, h.countP_closes, h'.countP_closes, Statement.countAll]

end

/-! ### All programs -/

/-- What has been read has as many statements as closing tokens were taken, at most. -/
def Affords {α : Type} (size : α → Nat) (tokens : List Token) : Ending α → Prop
  | .read value _ rest => size value + rest.countP Token.closes ≤ tokens.countP Token.closes
  | .stuck _ _ rest => rest.countP Token.closes ≤ tokens.countP Token.closes

lemma countP_closes_le_of_suffix {rest tokens : List Token} (h : rest <:+ tokens) :
    rest.countP Token.closes ≤ tokens.countP Token.closes :=
  h.sublist.countP_le

lemma Affords.of_suffix {α : Type} {size : α → Nat} {rest tokens : List Token} {e : Ending α}
    (h : Affords size rest e) (hrest : rest <:+ tokens) : Affords size tokens e := by
  have hle := countP_closes_le_of_suffix hrest
  cases e with
  | read value notes left => exact Nat.le_trans h hle
  | stuck cause notes left => exact Nat.le_trans h hle

/-- A phrase and the semicolon behind it are one statement. -/
lemma affords_bind_close {α : Type} {stop : Token} {missing : Expectation} {f : α → Statement}
    {tokens : List Token} {e : Ending α} (he : TakesFrom tokens e)
    (hf : e.Gives fun value => (f value).count = 1) :
    Affords Statement.count tokens
      (e.bind fun value => Ending.close stop .semicolon missing (f value)) := by
  have hle := countP_closes_le_of_suffix he.suffix
  cases e with
  | stuck cause notes rest => exact hle
  | read value notes rest =>
      cases rest with
      | nil => exact hle
      | cons token rest =>
          rw [Ending.bind_read, Ending.close]
          split
          case isTrue htoken =>
              have hkind : token.kind = .symbol .semicolon := by
                simpa [Token.isSymbol] using htoken
              have hcloses : token.closes := Token.closes_iff.2 (.inl hkind)
              have hone : (f value).count = 1 := hf
              rw [Ending.rest, List.countP_cons_of_pos hcloses] at hle
              rw [Ending.after, Affords, hone]
              omega
          case isFalse => exact hle

section

variable (stop : Token)

lemma initializer_count (name : Token) (tokens : List Token) :
    (initializer stop name tokens).ending.Gives fun declared => declared.count = 1 := by
  rw [initializer_ending]
  cases tokens with
  | nil => rfl
  | cons equals rest =>
      dsimp only
      split
      · exact (expression_wellFormed stop rest).bind fun _ _ _ _ _ => rfl
      · rfl

lemma variableDeclaration_affords (tokens : List Token) :
    Affords Statement.count tokens (variableDeclaration stop tokens).ending := by
  rw [variableDeclaration_ending]
  cases tokens with
  | nil => exact Nat.le_refl _
  | cons name rest =>
      dsimp only
      split
      · exact (affords_bind_close (initializer_takes stop name rest)
          (initializer_count stop name rest)).of_suffix (List.suffix_cons name rest)
      · exact Nat.le_refl _

variable {stop} in
/-- Recovery takes tokens but gives no statement. -/
lemma declaration_affords {token : Token} {rest : List Token}
    (h : Affords Statement.count (token :: rest) (statement stop token rest).ending) :
    Statement.countAll (declaration stop token rest).statement?.toList +
        (declaration stop token rest).rest.countP Token.closes ≤
      (token :: rest).countP Token.closes := by
  cases hs : (statement stop token rest).ending with
  | read result notes rest' =>
      obtain ⟨hresult, -, hrest⟩ := declaration_of_read hs
      rw [hs] at h
      rw [hresult, hrest]
      exact h
  | stuck cause notes rest' =>
      obtain ⟨hresult, -, hrest⟩ := declaration_of_stuck hs
      rw [hs] at h
      rw [hresult, hrest, Option.toList_none, Statement.countAll, Nat.zero_add]
      exact Nat.le_trans (countP_closes_le_of_suffix (resume_suffix rest')) h

/-- The brace of a block counts for the block, and what is read inside it for itself. -/
theorem statement_rules_afford :
    (∀ token rest, Affords Statement.count (token :: rest) (statement stop token rest).ending) ∧
    (∀ tokens, Affords (fun body => Statement.countAll body + 1) tokens
      (block stop tokens).ending) := by
  refine statement_induction stop ?plain ?brace ?block_nil ?block_end ?block_step
  case plain =>
      intro token rest hbrace
      rw [statement_ending]
      split
      · exact (variableDeclaration_affords stop rest).of_suffix (List.suffix_cons token rest)
      · refine (affords_bind_close (expression_takes stop rest) ?_).of_suffix
          (List.suffix_cons token rest)
        exact (expression_wellFormed stop rest).mono fun _ _ => rfl
      · exact absurd ‹_› hbrace
      · refine affords_bind_close (expression_takes stop (token :: rest)) ?_
        exact (expression_wellFormed stop (token :: rest)).mono fun _ _ => rfl
  case brace =>
      intro token rest hbrace ih
      rw [statement_ending, hbrace]
      have hblock := ih.of_suffix (List.suffix_cons token rest)
      revert hblock
      cases (block stop rest).ending with
      | read body notes rest' => exact id
      | stuck cause notes rest' => exact id
  case block_nil =>
      rw [block_nil]
      exact Nat.le_refl _
  case block_end =>
      intro token rest hbrace
      have hkind : token.kind = .symbol .rightBrace := by simpa [Token.isSymbol] using hbrace
      have hcloses : token.closes := Token.closes_iff.2 (.inr hkind)
      rw [block_of_brace stop hbrace, Affords, List.countP_cons_of_pos hcloses, Statement.countAll]
      omega
  case block_step =>
      intro token rest hbrace ih ih'
      have hfirst := declaration_affords ih
      rw [block_of_not_brace stop hbrace]
      revert ih'
      cases (block stop (declaration stop token rest).rest).ending with
      | read body notes rest' =>
          intro ih'
          rw [Affords] at ih'
          rw [Ending.bind_read, Ending.after, Ending.after, Affords, Statement.countAll_append]
          omega
      | stuck cause notes rest' =>
          intro ih'
          exact Nat.le_trans ih' (by omega)

/-- **All tokens** have at least one closing token for each statement that is read. -/
theorem countAll_declarations_le (tokens : List Token) :
    Statement.countAll (declarations stop tokens).1 ≤ tokens.countP Token.closes := by
  induction tokens using declarations_induction stop with
  | nil =>
      rw [declarations_nil]
      exact Nat.zero_le _
  | cons token rest ih =>
      have hfirst := declaration_affords ((statement_rules_afford stop).1 token rest)
      rw [declarations_cons, Statement.countAll_append]
      omega

end

end Grammar

end Scriptlet
