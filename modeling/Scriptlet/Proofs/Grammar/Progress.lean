import Scriptlet.Proofs.Grammar.Closers
import Scriptlet.Proofs.Grammar.FirstEnd

/-!
Recovery makes progress and never floods.

Every statement that is read and every complaint is paid for by a token of its own: a statement,
or the complaint that ends it, by its first token, and a complaint about an assignment by the
equals sign. A declaration that does not fit the grammar still takes a token, because recovery
passes over the one at which it got stuck.

* `Reader.declaration_moves`: a declaration takes the reader on.
* `Ending.Within`: an ending whose complaints and phrases are paid for.
* `Grammar.rules_within`, `Grammar.statements_within`: so is all that the rules lead to.
* `reading_progresses`: whole programs.
-/

namespace Scriptlet

/-! ### Progress -/

namespace Reader

/-- The last of the tokens that a reader has is an end marker. -/
lemma getLast?_terminated (tokens : List Token) :
    ∃ last, (terminated tokens).getLast? = some last ∧ last.isEnd := by
  rw [terminated]
  split
  case isTrue h => simpa only [Option.any_eq_true] using h
  case isFalse => exact ⟨_, List.getLast?_concat, Token.isEnd_endBehind tokens⟩

/-- **A declaration takes the reader on** by at least one token, wherever it stands. -/
theorem declaration_moves (tokens : List Token) (reader : Reader) {token : Token}
    (htoken : (terminated tokens)[reader.place]? = some token) (hend : ¬ token.isEnd) :
    ∃ statement? after,
      Ends (declaration (terminated tokens)) reader (.ok statement?) after ∧
      reader.place < after.place := by
  obtain ⟨last, hlast, hlastEnd⟩ := getLast?_terminated tokens
  obtain ⟨hplace, -⟩ := List.getElem?_eq_some_iff.1 htoken
  have hmem : last ∈ (terminated tokens).drop reader.place := by
    apply List.mem_of_getLast?
    rw [List.getLast?_drop, if_neg (Nat.not_le.2 hplace), hlast]
  obtain ⟨body, stop, behind, hdrop, hstop, hbody⟩ := Token.exists_first_end ⟨last, hmem, hlastEnd⟩
  -- the reader does not stand at an end marker, so it has a token before it
  rw [← List.head?_drop, hdrop] at htoken
  cases body with
  | nil =>
      obtain rfl : stop = token := by simpa using htoken
      exact absurd hstop hend
  | cons first rest =>
      let s : Stretch := ⟨terminated tokens, stop, behind, hstop⟩
      have hbefore : s.Before (first :: rest) reader := ⟨hbody, hdrop⟩
      obtain ⟨after, hends, hafter, -⟩ :=
        Stretch.follows_declaration (s.follows_statements.1 first rest) reader hbefore
      refine ⟨_, after, hends, ?_⟩
      have hlength := hbefore.length_eq
      have hlength' := hafter.length_eq
      have hshorter := (Grammar.declaration s.stop first rest).shorter
      rw [List.length_cons] at hlength
      simp only [Ending.rest] at hlength'
      omega

end Reader

/-! ### What an ending costs -/

namespace Ending

variable {α β : Type} {size : α → Nat} {size' : β → Nat} {budget : Nat}

/-- What is read, what is complained about and what is left are paid for. If the rule got
stuck, then the token at which it did so is not left, since recovery passes over it. -/
def Within (size : α → Nat) (budget : Nat) : Ending α → Prop
  | read value notes rest => size value + notes.length + rest.length ≤ budget
  | stuck _ notes rest => notes.length + 1 + (rest.length - 1) ≤ budget

lemma Within.mono {budget' : Nat} {e : Ending α} (h : e.Within size budget)
    (hle : budget ≤ budget') : e.Within size budget' := by
  cases e with
  | read value notes rest => exact Nat.le_trans h hle
  | stuck cause notes rest => exact Nat.le_trans h hle

/-- Two rules, one behind the other: the second one has what the first has read and left. -/
lemma Within.bind {e : Ending α} {next : α → List Token → Ending β} (h : e.Within size budget)
    (hnext : ∀ value notes rest, e = read value notes rest →
      (next value rest).Within size' (size value + rest.length)) :
    (e.bind next).Within size' budget := by
  cases e with
  | stuck cause notes rest => exact h
  | read value notes rest =>
      have hlater := hnext value notes rest rfl
      rw [Within] at h
      rw [bind_read]
      revert hlater
      cases next value rest with
      | read value' notes' rest' =>
          intro hlater
          rw [Within] at hlater
          rw [after, Within, List.length_append]
          omega
      | stuck cause notes' rest' =>
          intro hlater
          rw [Within] at hlater
          rw [after, Within, List.length_append]
          omega

/-- One token more, for something more that is noted about the phrase. -/
lemma Within.more {e : Ending α} (h : e.Within size budget) :
    e.Within (fun value => size value + 1) (budget + 1) := by
  cases e with
  | read value notes rest =>
      rw [Within] at h ⊢
      omega
  | stuck cause notes rest =>
      rw [Within] at h ⊢
      omega

/-- A symbol that has to follow a phrase. If it is missing, then the complaint takes the place
of the phrase. -/
lemma within_close {stop : Token} {symbol : Symbol} {missing : Expectation} {value : α}
    {tokens : List Token} (hvalue : 1 ≤ size value)
    (hbudget : size value + tokens.length ≤ budget) :
    (close stop symbol missing value tokens).Within size budget := by
  cases tokens with
  | nil => exact Nat.le_trans hvalue hbudget
  | cons token tokens =>
      rw [List.length_cons] at hbudget
      rw [close]
      split
      · rw [Within, List.length_nil]
        omega
      · rw [Within, List.length_nil, List.length_cons]
        omega

end Ending

lemma Statement.one_le_count (s : Statement) : 1 ≤ s.count := by
  cases s <;> simp [count]

namespace Grammar

variable (stop : Token)

/-! ### Expressions -/

/-- A phrase takes the place of a token. -/
abbrev phraseSize (_ : Expr) : Nat := 1

lemma length_assignment_le (equals : Token) (target value : Expr) :
    (assignment equals target value).2.length ≤ 1 := by
  cases target <;> simp [assignment]

/-- **What the rules of expressions lead to is paid for.** At the end of the tokens there is
none to pay for the complaint, so a rule may use one more there. -/
theorem rules_within :
    (∀ tokens, (expression stop tokens).ending.Within phraseSize (max tokens.length 1)) ∧
    (∀ level tokens, (binary stop level tokens).ending.Within phraseSize (max tokens.length 1)) ∧
    (∀ level left tokens,
      (chain stop level left tokens).ending.Within phraseSize (1 + tokens.length)) ∧
    (∀ level tokens, (operand stop level tokens).ending.Within phraseSize (max tokens.length 1)) ∧
    (∀ tokens, (unary stop tokens).ending.Within phraseSize (max tokens.length 1)) ∧
    (∀ token rest, (primary stop token rest).ending.Within phraseSize (1 + rest.length)) := by
  refine rule_induction stop ?expression ?binary ?chain_nil ?chain_end ?chain_step
    ?operand_tighter ?operand_unary ?unary_nil ?unary_operator ?unary_primary ?primary_paren
    ?primary_atom ?primary_other
  case expression =>
      intro tokens ihtarget ihvalue
      rw [expression_ending]
      refine ihtarget.bind ?_
      intro target notes behind htarget
      cases behind with
      | nil => exact Nat.le_refl _
      | cons equals rest =>
          rw [behindTarget]
          split
          case isTrue hequals =>
              -- the equals sign pays for the complaint about the target
              refine ((ihvalue target notes equals rest htarget hequals).more.bind ?_).mono ?_
              · intro value _ rest' _
                have hone := length_assignment_le equals target value
                simp only [Ending.Within, phraseSize]
                omega
              · simp only [phraseSize, List.length_cons]
                omega
          case isFalse => exact Nat.le_refl _
  case binary =>
      intro level tokens ihoperand ihchain
      rw [binary_ending]
      exact ihoperand.bind ihchain
  case chain_nil =>
      intro level left
      rw [chain_nil]
      exact Nat.le_refl _
  case chain_end =>
      intro level left operator rest hop
      rw [chain_of_none stop hop]
      exact Nat.le_refl _
  case chain_step =>
      intro level left operator rest op hop ihoperand ihchain
      rw [chain_of_some stop hop, List.length_cons]
      exact (ihoperand.bind ihchain).mono (by omega)
  case operand_tighter =>
      intro level tighter tokens htighter ih
      rwa [operand_of_some stop htighter]
  case operand_unary =>
      intro level tokens htighter ih
      rwa [operand_of_none stop htighter]
  case unary_nil =>
      rw [unary_nil]
      exact Nat.le_refl _
  case unary_operator =>
      intro operator rest op hop ih
      rw [unary_of_some stop hop, List.length_cons]
      exact (ih.bind fun _ _ _ _ => Nat.le_refl _).mono (by omega)
  case unary_primary =>
      intro token rest hop ih
      rw [unary_of_none stop hop, List.length_cons]
      exact ih.mono (by omega)
  case primary_paren =>
      intro token rest htoken ih
      rw [primary_of_paren stop htoken]
      refine (ih.bind ?_).mono (by omega)
      intro inner _ rest' _
      exact Ending.within_close (Nat.le_refl _) (Nat.le_refl _)
  case primary_atom =>
      intro token rest phrase hatom
      rw [primary_of_some stop hatom]
      exact Nat.le_refl _
  case primary_other =>
      intro token rest hatom hparen
      rw [primary_of_none stop hatom hparen, Ending.Within, List.length_nil, List.length_cons]
      omega

lemma expression_within (tokens : List Token) :
    (expression stop tokens).ending.Within phraseSize (max tokens.length 1) :=
  (rules_within stop).1 tokens

/-! ### Statements -/

/-- An expression and the semicolon behind it are one statement. -/
lemma closedExpression_within {missing : Expectation} {f : Expr → Statement}
    (hf : ∀ value, (f value).count = 1) (tokens : List Token) :
    ((expression stop tokens).ending.bind fun value =>
      Ending.close stop .semicolon missing (f value)).Within Statement.count
        (max tokens.length 1) := by
  refine (expression_within stop tokens).bind ?_
  intro value _ rest _
  exact Ending.within_close (hf value).ge (by rw [hf value])

lemma initializer_within (name : Token) (tokens : List Token) :
    (initializer stop name tokens).ending.Within Statement.count (1 + tokens.length) := by
  rw [initializer_ending]
  cases tokens with
  | nil => exact Nat.le_refl _
  | cons equals rest =>
      dsimp only
      split
      · rw [List.length_cons]
        exact ((expression_within stop rest).bind fun _ _ _ _ => Nat.le_refl _).mono (by omega)
      · exact Nat.le_refl _

lemma variableDeclaration_within (tokens : List Token) :
    (variableDeclaration stop tokens).ending.Within Statement.count (1 + tokens.length) := by
  rw [variableDeclaration_ending]
  cases tokens with
  | nil => exact Nat.le_refl _
  | cons name rest =>
      dsimp only
      rw [List.length_cons]
      split
      · refine ((initializer_within stop name rest).bind ?_).mono (by omega)
        intro result _ rest' _
        exact Ending.within_close (Statement.one_le_count result) (Nat.le_refl _)
      · rw [Ending.Within, List.length_nil, List.length_cons]
        omega

/-- Recovery passes over a token if there is one. -/
lemma length_resume_le (tokens : List Token) : (resume tokens).length ≤ tokens.length - 1 := by
  cases tokens with
  | nil => exact Nat.le_refl _
  | cons token rest => exact length_boundary_le token rest

variable {stop} in
/-- A declaration that is left out is paid for by the token over which recovery passes. -/
lemma declaration_within {token : Token} {rest : List Token}
    (h : (statement stop token rest).ending.Within Statement.count (1 + rest.length)) :
    Statement.countAll (declaration stop token rest).statement?.toList +
        (declaration stop token rest).complaints.length +
        (declaration stop token rest).rest.length ≤ 1 + rest.length := by
  cases hs : (statement stop token rest).ending with
  | read result notes rest' =>
      obtain ⟨hresult, hcomplaints, hrest⟩ := declaration_of_read hs
      rw [hs] at h
      rw [hresult, hcomplaints, hrest]
      exact h
  | stuck cause notes rest' =>
      obtain ⟨hresult, hcomplaints, hrest⟩ := declaration_of_stuck hs
      have hresume := length_resume_le rest'
      rw [hs, Ending.Within] at h
      rw [hresult, hcomplaints, hrest, Option.toList_none, Statement.countAll, List.length_append,
        List.length_singleton]
      omega

/-- **What the rules of statements lead to is paid for**, a block by its opening brace. -/
theorem statements_within :
    (∀ token rest,
      (statement stop token rest).ending.Within Statement.count (1 + rest.length)) ∧
    ∀ tokens, (block stop tokens).ending.Within (fun body => Statement.countAll body + 1)
      (1 + tokens.length) := by
  refine statement_induction stop ?plain ?brace ?block_nil ?block_end ?block_step
  case plain =>
      intro token rest hbrace
      rw [statement_ending]
      split
      · exact variableDeclaration_within stop rest
      · exact (closedExpression_within stop (fun _ => rfl) rest).mono (by omega)
      · exact absurd ‹_› hbrace
      · refine (closedExpression_within stop (fun _ => rfl) (token :: rest)).mono ?_
        rw [List.length_cons]
        omega
  case brace =>
      intro token rest hbrace ih
      rw [statement_ending, hbrace]
      exact ih.bind fun body _ rest' _ => Nat.le_refl _
  case block_nil =>
      rw [block_nil]
      exact Nat.le_refl _
  case block_end =>
      intro token rest hbrace
      rw [block_of_brace stop hbrace, Ending.Within, Statement.countAll, List.length_nil,
        List.length_cons]
      omega
  case block_step =>
      intro token rest hbrace ih ihblock
      have hfirst := declaration_within ih
      rw [block_of_not_brace stop hbrace]
      revert ihblock
      cases (block stop (declaration stop token rest).rest).ending with
      | read body notes rest' =>
          intro ihblock
          rw [Ending.Within] at ihblock
          rw [Ending.bind_read, Ending.after, Ending.after, Ending.Within,
            Statement.countAll_append, List.length_append, List.length_cons, List.append_nil]
          omega
      | stuck cause notes rest' =>
          intro ihblock
          rw [Ending.Within] at ihblock
          rw [Ending.bind_stuck, Ending.after, Ending.Within, List.length_append, List.length_cons]
          omega

/-- All declarations and complaints are paid for by the tokens. -/
theorem declarations_within (tokens : List Token) :
    (declarations stop tokens).2.length + Statement.countAll (declarations stop tokens).1 ≤
      tokens.length := by
  induction tokens using declarations_induction stop with
  | nil =>
      rw [declarations_nil]
      exact Nat.le_refl _
  | cons token rest ih =>
      have hfirst := declaration_within ((statements_within stop).1 token rest)
      rw [declarations_cons, Statement.countAll_append, List.length_append, List.length_cons]
      omega

end Grammar

/-- **Reading makes progress and does not flood.** A reader comes to the end of all tokens and
gives the program and the complaints. Each declaration that it begins before a token that is
no end marker takes it on by a token or more. And what is reported, together with the
statements of the program and those inside them, is no more than the tokens before the first
end marker. -/
theorem reading_progresses (tokens : List Token) :
    (∃ reader, Reader.Ends (Reader.ofTokens tokens) {} (.ok (Parse.ofTokens tokens).program)
        reader ∧
      reader.notes = (Parse.ofTokens tokens).complaints) ∧
    (∀ (reader : Reader) (token : Token),
      (Reader.terminated tokens)[reader.place]? = some token → ¬ token.isEnd →
      ∃ statement? after,
        Reader.Ends (Reader.declaration (Reader.terminated tokens)) reader (.ok statement?) after ∧
        reader.place < after.place) ∧
    (Parse.ofTokens tokens).report.length + Statement.countAll (Parse.ofTokens tokens).program ≤
      (Token.beforeEnd tokens).length := by
  refine ⟨?_, ?_, ?_⟩
  · obtain ⟨reader, hends, hnotes, -⟩ := Reader.ofTokens_follows tokens
    exact ⟨reader, hends, hnotes⟩
  · exact fun reader token => Reader.declaration_moves tokens reader
  · rw [Parse.report, List.length_map, Parse.ofTokens_eq]
    exact Grammar.declarations_within _ _

/-- Two complaints about two tokens: an expression is missing, and the block is still open. -/
theorem reading_progresses_at_open_block :
    let tokens := (scan "\x7b print").tokens
    (Parse.ofTokens tokens).report.length = (Token.beforeEnd tokens).length ∧
    (Parse.ofTokens tokens).report.length +
      Statement.countAll (Parse.ofTokens tokens).program ≤ 2 ∧
    ∃ statement? after, Reader.Ends (Reader.declaration (Reader.terminated tokens)) {}
      (.ok statement?) after ∧ 0 < after.place := by
  intro tokens
  have hlength : (Token.beforeEnd tokens).length = 2 := by decide +kernel
  have hreport : (Parse.ofTokens tokens).report.length = 2 := by decide +kernel
  obtain ⟨-, hmoves, hbound⟩ := reading_progresses tokens
  refine ⟨hreport.trans hlength.symm, hlength ▸ hbound, ?_⟩
  let brace : Token := ⟨.symbol .leftBrace, "\x7b", none, ⟨1, 1⟩⟩
  exact hmoves {} brace (by decide +kernel) (by decide +kernel)

end Scriptlet
