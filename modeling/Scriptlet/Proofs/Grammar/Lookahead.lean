import Scriptlet.Proofs.Grammar.Rules

/-!
How far expressions look, and what they take.

A rule of expressions looks at one token behind what it takes. If it leaves a
token, then it ends in the same way whatever follows. The tokens that it takes
are tokens of expressions, which no semicolon and no brace is.

* `Ending.extend`: an ending with more tokens behind what is left.
* `Ending.Settled`: an ending that more tokens cannot change.
* `expression_append`: an expression that leaves a token is settled.
* `TakesFrom`, `expression_takes`: expressions take tokens of expressions.
-/

namespace Scriptlet

/-! ### Endings with more tokens behind them -/

namespace Ending

variable {α β : Type} {more : List Token}

/-- The same ending with more tokens behind what is left. -/
def extend (more : List Token) : Ending α → Ending α
  | read value notes rest => read value notes (rest ++ more)
  | stuck cause notes rest => stuck cause notes (rest ++ more)

@[simp]
lemma extend_read (value : α) (notes : List Complaint) (rest : List Token) :
    (read value notes rest).extend more = read value notes (rest ++ more) := rfl

@[simp]
lemma extend_stuck (cause : Complaint) (notes : List Complaint) (rest : List Token) :
    (stuck cause notes rest : Ending α).extend more = stuck cause notes (rest ++ more) := rfl

lemma extend_after (earlier : List Complaint) (e : Ending α) :
    (e.after earlier).extend more = (e.extend more).after earlier := by
  cases e <;> rfl

/-- Two rules, one behind the other, end in the same way with more tokens if
both do, and the second one is not asked at the end of the tokens. -/
lemma extend_bind {e e' : Ending α} {next next' : α → List Token → Ending β}
    (hend : ∀ value, (next value []).rest = [])
    (he : e.rest ≠ [] → e' = e.extend more)
    (hnext : ∀ value notes rest, e = read value notes rest → (next value rest).rest ≠ [] →
      next' value (rest ++ more) = (next value rest).extend more)
    (h : (e.bind next).rest ≠ []) : e'.bind next' = (e.bind next).extend more := by
  cases e with
  | read value notes rest =>
      rw [bind_read, rest_after] at h
      have hrest : rest ≠ [] := by
        rintro rfl
        exact h (hend value)
      rw [he hrest, extend_read, bind_read, bind_read, hnext value notes rest rfl h, extend_after]
  | stuck cause notes rest =>
      rw [he h]
      rfl

/-- What a phrase means has nothing to do with what is left. -/
lemma extend_bind_read {e e' : Ending α} {f : α → β} {g : α → List Complaint}
    (he : e.rest ≠ [] → e' = e.extend more)
    (h : (e.bind fun value rest => read (f value) (g value) rest).rest ≠ []) :
    (e'.bind fun value rest => read (f value) (g value) rest) =
      (e.bind fun value rest => read (f value) (g value) rest).extend more :=
  extend_bind (fun _ => rfl) he (fun _ _ _ _ _ => rfl) h

@[simp]
lemma rest_close_nil {stop : Token} {symbol : Symbol} {missing : Expectation} {value : α} :
    (close stop symbol missing value []).rest = [] := rfl

lemma extend_close {stop stop' : Token} {symbol : Symbol} {missing : Expectation} {value : α}
    {tokens : List Token} (h : tokens ≠ []) :
    close stop' symbol missing value (tokens ++ more) =
      (close stop symbol missing value tokens).extend more := by
  obtain ⟨token, rest, rfl⟩ := List.exists_cons_of_ne_nil h
  rw [List.cons_append, close, close]
  split <;> rfl

/-- The rule did not get stuck at the end of the tokens. -/
def Settled : Ending α → Prop
  | read _ _ _ => True
  | stuck _ _ rest => rest ≠ []

@[simp]
lemma settled_after {earlier : List Complaint} {e : Ending α} :
    (e.after earlier).Settled ↔ e.Settled := by
  cases e <;> rfl

@[simp]
lemma settled_bind_read {e : Ending α} {f : α → β} :
    (e.bind fun value rest => read (f value) [] rest).Settled ↔ e.Settled := by
  cases e <;> rfl

lemma settled_bind_close {stop : Token} {symbol : Symbol} {missing : Expectation}
    {e : Ending α} {f : α → β} (h : e.rest ≠ []) :
    (e.bind fun value => close stop symbol missing (f value)).Settled := by
  cases e with
  | stuck cause notes rest => exact h
  | read value notes rest =>
      obtain ⟨token, rest, rfl⟩ := List.exists_cons_of_ne_nil h
      rw [bind_read, settled_after, close]
      split
      · trivial
      · exact List.cons_ne_nil token rest

lemma rest_bind_close {stop : Token} {symbol : Symbol} {missing : Expectation}
    {e : Ending α} {f : α → β} :
    (e.bind fun value => close stop symbol missing (f value)).rest <:+ e.rest := by
  cases e with
  | stuck cause notes rest => exact List.suffix_rfl
  | read value notes rest =>
      rw [bind_read, rest_after]
      cases rest with
      | nil => exact List.suffix_rfl
      | cons token rest =>
          rw [close]
          split
          · exact List.suffix_cons token rest
          · exact List.suffix_rfl

/-- A symbol behind a phrase settles the phrase. -/
lemma extend_bind_close {stop stop' : Token} {symbol : Symbol} {missing : Expectation}
    {e e' : Ending α} {f : α → β} (he : e.rest ≠ [] → e' = e.extend more)
    (h : (e.bind fun value => close stop symbol missing (f value)).Settled) :
    (e'.bind fun value => close stop' symbol missing (f value)) =
      (e.bind fun value => close stop symbol missing (f value)).extend more := by
  cases e with
  | read value notes rest =>
      have hrest : rest ≠ [] := by
        rintro rfl
        rw [bind_read, settled_after] at h
        exact h rfl
      rw [he hrest, extend_read, bind_read, bind_read, extend_close hrest, extend_after]
  | stuck cause notes rest =>
      rw [he h]
      rfl

end Ending

namespace Grammar

/-! ### Lookahead of expressions -/

lemma behindTarget_append {stop stop' : Token} {more : List Token} {target : Expr}
    {tokens : List Token}
    (hvalue : ∀ equals rest, tokens = equals :: rest → equals.isSymbol .equal →
      (expression stop rest).ending.rest ≠ [] →
      (expression stop' (rest ++ more)).ending = (expression stop rest).ending.extend more)
    (h : (behindTarget stop target tokens).rest ≠ []) :
    behindTarget stop' target (tokens ++ more) =
      (behindTarget stop target tokens).extend more := by
  cases tokens with
  | nil => exact absurd rfl h
  | cons equals rest =>
      rw [behindTarget] at h
      rw [List.cons_append, behindTarget, behindTarget]
      by_cases hequals : equals.isSymbol .equal
      · rw [if_pos hequals] at h
        rw [if_pos hequals, if_pos hequals]
        exact Ending.extend_bind_read (hvalue equals rest rfl hequals) h
      · rw [if_neg hequals, if_neg hequals]
        rfl

/-- A rule of expressions that leaves a token ends in the same way whatever
follows, and whatever is blamed for the end of the tokens. -/
theorem rules_append (stop stop' : Token) (more : List Token) :
    (∀ tokens, (expression stop tokens).ending.rest ≠ [] →
      (expression stop' (tokens ++ more)).ending = (expression stop tokens).ending.extend more) ∧
    (∀ level tokens, (binary stop level tokens).ending.rest ≠ [] →
      (binary stop' level (tokens ++ more)).ending =
        (binary stop level tokens).ending.extend more) ∧
    (∀ level left tokens, (chain stop level left tokens).ending.rest ≠ [] →
      (chain stop' level left (tokens ++ more)).ending =
        (chain stop level left tokens).ending.extend more) ∧
    (∀ level tokens, (operand stop level tokens).ending.rest ≠ [] →
      (operand stop' level (tokens ++ more)).ending =
        (operand stop level tokens).ending.extend more) ∧
    (∀ tokens, (unary stop tokens).ending.rest ≠ [] →
      (unary stop' (tokens ++ more)).ending = (unary stop tokens).ending.extend more) ∧
    (∀ token rest, (primary stop token rest).ending.rest ≠ [] →
      (primary stop' token (rest ++ more)).ending =
        (primary stop token rest).ending.extend more) := by
  refine rule_induction stop ?expression ?binary ?chain_nil ?chain_end ?chain_step
    ?operand_tighter ?operand_unary ?unary_nil ?unary_operator ?unary_primary ?primary_paren
    ?primary_atom ?primary_other
  case expression =>
      intro tokens htarget hvalue h
      rw [expression_ending] at h
      rw [expression_ending, expression_ending]
      refine Ending.extend_bind (fun _ => rfl) htarget ?_ h
      intro target notes rest hread hrest
      refine behindTarget_append ?_ hrest
      rintro equals behind rfl hequals
      exact hvalue target notes equals behind hread hequals
  case binary =>
      intro level tokens hoperand hsteps h
      rw [binary_ending] at h
      rw [binary_ending, binary_ending]
      refine Ending.extend_bind ?_ hoperand hsteps h
      intro left
      rw [chain_nil]
      rfl
  case chain_nil =>
      intro level left h
      rw [chain_nil] at h
      exact absurd rfl h
  case chain_end =>
      intro level left operator rest hop _
      rw [List.cons_append, chain_of_none stop hop, chain_of_none stop' hop]
      rfl
  case chain_step =>
      intro level left operator rest op hop hoperand hsteps h
      rw [chain_of_some stop hop] at h
      rw [List.cons_append, chain_of_some stop hop, chain_of_some stop' hop]
      refine Ending.extend_bind ?_ hoperand hsteps h
      intro right
      rw [chain_nil]
      rfl
  case operand_tighter =>
      intro level tighter tokens htighter ih h
      rw [operand_of_some stop htighter] at h
      rw [operand_of_some stop htighter, operand_of_some stop' htighter, ih h]
  case operand_unary =>
      intro level tokens htighter ih h
      rw [operand_of_none stop htighter] at h
      rw [operand_of_none stop htighter, operand_of_none stop' htighter, ih h]
  case unary_nil =>
      intro h
      rw [unary_nil] at h
      exact absurd rfl h
  case unary_operator =>
      intro operator rest op hop ih h
      rw [unary_of_some stop hop] at h
      rw [List.cons_append, unary_of_some stop hop, unary_of_some stop' hop]
      exact Ending.extend_bind_read ih h
  case unary_primary =>
      intro token rest hop ih h
      rw [unary_of_none stop hop] at h
      rw [List.cons_append, unary_of_none stop hop, unary_of_none stop' hop, ih h]
  case primary_paren =>
      intro token rest htoken ih h
      rw [primary_of_paren stop htoken] at h
      rw [primary_of_paren stop htoken, primary_of_paren stop' htoken]
      refine Ending.extend_bind (fun _ => rfl) ih ?_ h
      intro inner notes rest' _ hrest
      refine Ending.extend_close ?_
      rintro rfl
      exact hrest rfl
  case primary_atom =>
      intro token rest phrase hatom _
      rw [primary_of_some stop hatom, primary_of_some stop' hatom]
      rfl
  case primary_other =>
      intro token rest hatom hparen _
      rw [primary_of_none stop hatom hparen, primary_of_none stop' hatom hparen]
      rfl

/-- **Lookahead of expressions.** -/
lemma expression_append {stop : Token} (stop' : Token) {tokens : List Token}
    (h : (expression stop tokens).ending.rest ≠ []) (more : List Token) :
    (expression stop' (tokens ++ more)).ending = (expression stop tokens).ending.extend more :=
  (rules_append stop stop' more).1 tokens h

/-! ### What expressions take -/

/-- The rule has taken tokens of expressions from the front of the tokens. -/
def TakesFrom {α : Type} (tokens : List Token) (e : Ending α) : Prop :=
  ∃ used, tokens = used ++ e.rest ∧ ∀ token ∈ used, inExpression token.kind

lemma TakesFrom.refl {α : Type} {tokens : List Token} {e : Ending α} (h : e.rest = tokens) :
    TakesFrom tokens e := ⟨[], h.symm, by simp⟩

lemma TakesFrom.cons {α : Type} {token : Token} {tokens : List Token} {e : Ending α}
    (htoken : inExpression token.kind) (h : TakesFrom tokens e) : TakesFrom (token :: tokens) e := by
  obtain ⟨used, rfl, hused⟩ := h
  refine ⟨token :: used, rfl, ?_⟩
  simpa [htoken] using hused

lemma TakesFrom.bind {α β : Type} {tokens : List Token} {e : Ending α}
    {next : α → List Token → Ending β} (h : TakesFrom tokens e)
    (hnext : ∀ value notes rest, e = .read value notes rest → TakesFrom rest (next value rest)) :
    TakesFrom tokens (e.bind next) := by
  cases e with
  | stuck cause notes rest => exact h
  | read value notes rest =>
      obtain ⟨used, rfl, hused⟩ := h
      obtain ⟨more, hmore, hmore'⟩ := hnext value notes rest rfl
      refine ⟨used ++ more, ?_, List.forall_mem_append.2 ⟨hused, hmore'⟩⟩
      rw [Ending.bind_read, Ending.rest_after, List.append_assoc, ← hmore]
      rfl

lemma takesFrom_close {α : Type} {stop : Token} {symbol : Symbol} {missing : Expectation}
    {value : α} (hsymbol : inExpression (.symbol symbol)) (tokens : List Token) :
    TakesFrom tokens (Ending.close stop symbol missing value tokens) := by
  cases tokens with
  | nil => exact .refl rfl
  | cons token rest =>
      rw [Ending.close]
      split
      case isTrue htoken =>
          refine .cons ?_ (.refl rfl)
          rwa [show token.kind = .symbol symbol by simpa [Token.isSymbol] using htoken]
      case isFalse => exact .refl rfl

lemma inExpression_of_ofKindAt? {level : Precedence} {kind : Token.Kind} {op : BinaryOp}
    (h : BinaryOp.ofKindAt? level kind = some op) : inExpression kind := by
  rw [(ofKindAt?_eq_some_iff.1 h).1]
  exact inExpression_binary op

lemma inExpression_of_ofKind? {kind : Token.Kind} {op : UnaryOp}
    (h : UnaryOp.ofKind? kind = some op) : inExpression kind := by
  rw [UnaryOp.ofKind?_eq_some_iff.1 h]
  exact inExpression_unary op

lemma inExpression_of_atom? {token : Token} {phrase : Expr} (h : atom? token = some phrase) :
    inExpression token.kind := by
  rw [atom?] at h
  split at h <;> simp_all [inExpression]

/-- The rules of expressions take tokens of expressions only, whether they read
a phrase or get stuck. -/
theorem rules_take (stop : Token) :
    (∀ tokens, TakesFrom tokens (expression stop tokens).ending) ∧
    (∀ level tokens, TakesFrom tokens (binary stop level tokens).ending) ∧
    (∀ level left tokens, TakesFrom tokens (chain stop level left tokens).ending) ∧
    (∀ level tokens, TakesFrom tokens (operand stop level tokens).ending) ∧
    (∀ tokens, TakesFrom tokens (unary stop tokens).ending) ∧
    (∀ token rest, TakesFrom (token :: rest) (primary stop token rest).ending) := by
  refine rule_induction stop ?expression ?binary ?chain_nil ?chain_end ?chain_step
    ?operand_tighter ?operand_unary ?unary_nil ?unary_operator ?unary_primary ?primary_paren
    ?primary_atom ?primary_other
  case expression =>
      intro tokens htarget hvalue
      rw [expression_ending]
      refine htarget.bind ?_
      intro target notes rest hread
      cases rest with
      | nil => exact .refl rfl
      | cons equals rest =>
          rw [behindTarget]
          split
          case isTrue hequals =>
              have hkind : equals.kind = .symbol .equal := by simpa [Token.isSymbol] using hequals
              refine .cons (by rw [hkind]; rfl) ?_
              exact (hvalue target notes equals rest hread hequals).bind fun _ _ _ _ => .refl rfl
          case isFalse => exact .refl rfl
  case binary =>
      intro level tokens hoperand hsteps
      rw [binary_ending]
      exact hoperand.bind hsteps
  case chain_nil =>
      intro level left
      rw [chain_nil]
      exact .refl rfl
  case chain_end =>
      intro level left operator rest hop
      rw [chain_of_none stop hop]
      exact .refl rfl
  case chain_step =>
      intro level left operator rest op hop hoperand hsteps
      rw [chain_of_some stop hop]
      exact .cons (inExpression_of_ofKindAt? hop) (hoperand.bind hsteps)
  case operand_tighter =>
      intro level tighter tokens htighter ih
      rwa [operand_of_some stop htighter]
  case operand_unary =>
      intro level tokens htighter ih
      rwa [operand_of_none stop htighter]
  case unary_nil =>
      rw [unary_nil]
      exact .refl rfl
  case unary_operator =>
      intro operator rest op hop ih
      rw [unary_of_some stop hop]
      exact .cons (inExpression_of_ofKind? hop) (ih.bind fun _ _ _ _ => .refl rfl)
  case unary_primary =>
      intro token rest hop ih
      rwa [unary_of_none stop hop]
  case primary_paren =>
      intro token rest htoken ih
      rw [primary_of_paren stop htoken]
      exact .cons (by rw [htoken]; rfl) (ih.bind fun _ _ rest' _ => takesFrom_close rfl rest')
  case primary_atom =>
      intro token rest phrase hatom
      rw [primary_of_some stop hatom]
      exact .cons (inExpression_of_atom? hatom) (.refl rfl)
  case primary_other =>
      intro token rest hatom hparen
      rw [primary_of_none stop hatom hparen]
      exact .refl rfl

/-- **Expressions take tokens of expressions only.** -/
lemma expression_takes (stop : Token) (tokens : List Token) :
    TakesFrom tokens (expression stop tokens).ending := (rules_take stop).1 tokens

end Grammar

end Scriptlet
