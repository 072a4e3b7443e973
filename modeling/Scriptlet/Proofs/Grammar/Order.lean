import Mathlib.Data.List.Forall2
import Scriptlet.Proofs.Grammar.Exact
import Scriptlet.Proofs.Grammar.FirstEnd
import Scriptlet.Proofs.Grammar.Locality

/-!
What is read is written in the tokens, in the same order.

A program is listed as its names, operators and literals in source order. Recovery may leave
tokens out of that list, but it adds none, repeats none and moves none. The proof keeps the
list of all that has been read so far, and this list is always one of tokens that stand before
those that are left.

* `Entry`, `Statement.entries`: names, operators and literals, and where a program has them.
* `Entry.WrittenBy`: the token that an entry comes from.
* `Traced`: entries that come from tokens before the rest.
* `Ending.Logs`: an ending that adds its entries, and complains about tokens only.
* `Grammar.rules_log`, `Grammar.statements_log`: so do the rules.
* `reading_keeps_order`: whole programs.
-/

namespace Scriptlet

/-! ### Entries -/

/-- What a program says at one place of its source. -/
inductive Entry where
  | literal (value : Value)
  | unary (op : UnaryOp) (operator : Token)
  | binary (op : BinaryOp) (operator : Token)
  | name (token : Token)
deriving DecidableEq

/-- The entry comes from the token. A literal is a word or what a number or string token
carries; names and operators are the tokens themselves. -/
inductive Entry.WrittenBy : Entry → Token → Prop where
  | trueWord {token : Token} (h : token.kind = .keyword .true) :
      WrittenBy (.literal (.bool true)) token
  | falseWord {token : Token} (h : token.kind = .keyword .false) :
      WrittenBy (.literal (.bool false)) token
  | nilWord {token : Token} (h : token.kind = .keyword .nil) : WrittenBy (.literal .nil) token
  | number {token : Token} {value : Value} (h : token.kind = .number)
      (h' : Grammar.Carries token value) : WrittenBy (.literal value) token
  | string {token : Token} {value : Value} (h : token.kind = .string)
      (h' : Grammar.Carries token value) : WrittenBy (.literal value) token
  | unary {op : UnaryOp} {token : Token} (h : token.kind = .symbol op.symbol) :
      WrittenBy (.unary op token) token
  | binary {op : BinaryOp} {token : Token} (h : token.kind = .symbol op.symbol) :
      WrittenBy (.binary op token) token
  | name {token : Token} (h : token.kind = .identifier) : WrittenBy (.name token) token

/-- The entries of an expression in source order. -/
def Expr.entries : Expr → List Entry
  | .literal value => [.literal value]
  | .grouping inner => inner.entries
  | .unary op operator operand => .unary op operator :: operand.entries
  | .binary op operator left right => left.entries ++ .binary op operator :: right.entries
  | .read name => [.name name]
  | .assign name value => .name name :: value.entries

namespace Statement

mutual

/-- The entries of a statement in source order. -/
def entries : Statement → List Entry
  | .expression expr | .print expr => expr.entries
  | .declare name none => [.name name]
  | .declare name (some initial) => .name name :: initial.entries
  | .block body => entriesAll body

/-- The entries of a program in source order. -/
def entriesAll : List Statement → List Entry
  | [] => []
  | statement :: rest => statement.entries ++ entriesAll rest

end

lemma entriesAll_append (program more : List Statement) :
    entriesAll (program ++ more) = entriesAll program ++ entriesAll more := by
  induction program with
  | nil => rfl
  | cons statement rest ih => rw [List.cons_append, entriesAll, entriesAll, ih, List.append_assoc]

end Statement

/-! ### Entries of the tokens so far -/

/-- The entries come from tokens before `rest`, each from one of its own and in the order of
these tokens. -/
def Traced (tokens : List Token) (entries : List Entry) (rest : List Token) : Prop :=
  ∃ used, tokens = used ++ rest ∧ List.SublistForall₂ Entry.WrittenBy entries used

namespace Traced

variable {tokens rest : List Token} {entries : List Entry} {token : Token}

lemma start (tokens : List Token) : Traced tokens [] tokens := ⟨[], rfl, .nil⟩

lemma mem (h : Traced tokens entries rest) (htoken : token ∈ rest) : token ∈ tokens := by
  obtain ⟨used, rfl, -⟩ := h
  exact List.mem_append_right used htoken

/-- Some tokens may be passed over. -/
lemma of_suffix {rest' : List Token} (h : Traced tokens entries rest) (hrest : rest' <:+ rest) :
    Traced tokens entries rest' := by
  obtain ⟨used, rfl, hentries⟩ := h
  obtain ⟨passed, rfl⟩ := hrest
  obtain ⟨taken, htaken, hsublist⟩ := List.sublistForall₂_iff.1 hentries
  refine ⟨used ++ passed, (List.append_assoc ..).symm, List.sublistForall₂_iff.2 ?_⟩
  exact ⟨taken, htaken, hsublist.trans (List.sublist_append_left used passed)⟩

lemma tail (h : Traced tokens entries (token :: rest)) : Traced tokens entries rest :=
  h.of_suffix (List.suffix_cons token rest)

/-- The next token adds an entry. -/
lemma write {entry : Entry} (h : Traced tokens entries (token :: rest))
    (hentry : entry.WrittenBy token) : Traced tokens (entries ++ [entry]) rest := by
  obtain ⟨used, rfl, hentries⟩ := h
  obtain ⟨taken, htaken, hsublist⟩ := List.sublistForall₂_iff.1 hentries
  refine ⟨used ++ [token], by simp, List.sublistForall₂_iff.2 ⟨taken ++ [token], ?_, ?_⟩⟩
  · exact List.rel_append htaken (.cons hentry .nil)
  · exact hsublist.append_right [token]

/-- Entries at the end of the list may be left out. -/
lemma forget {later : List Entry} (h : Traced tokens (entries ++ later) rest) :
    Traced tokens entries rest := by
  obtain ⟨used, rfl, hentries⟩ := h
  obtain ⟨taken, htaken, hsublist⟩ := List.sublistForall₂_iff.1 hentries
  refine ⟨used, rfl, List.sublistForall₂_iff.2 ⟨taken.take entries.length, ?_, ?_⟩⟩
  · have hfirst := List.forall₂_take entries.length htaken
    rwa [List.take_left] at hfirst
  · exact (List.take_sublist _ _).trans hsublist

end Traced

/-! ### What endings log -/

/-- The complaint is about one of the tokens or about the end marker. -/
def Complaint.Concerns (tokens : List Token) (stop : Token) (complaint : Complaint) : Prop :=
  complaint.token ∈ tokens ∨ complaint.token = stop

namespace Ending

variable {α β : Type} {tokens : List Token} {stop : Token} {earlier : List Entry}
  {entries : α → List Entry} {entries' : β → List Entry}

/-- The entries of what is read come behind the earlier ones. If nothing is read, the earlier
ones remain. -/
def Logs (tokens : List Token) (stop : Token) (earlier : List Entry) (entries : α → List Entry) :
    Ending α → Prop
  | read value notes rest =>
    Traced tokens (earlier ++ entries value) rest ∧ ∀ note ∈ notes, note.Concerns tokens stop
  | stuck cause notes rest =>
    Traced tokens earlier rest ∧ cause.Concerns tokens stop ∧
      ∀ note ∈ notes, note.Concerns tokens stop

lemma Logs.after {earlier' : List Complaint} {e : Ending α} (h : e.Logs tokens stop earlier entries)
    (hearlier : ∀ note ∈ earlier', note.Concerns tokens stop) :
    (e.after earlier').Logs tokens stop earlier entries := by
  cases e with
  | read value notes rest => exact ⟨h.1, List.forall_mem_append.2 ⟨hearlier, h.2⟩⟩
  | stuck cause notes rest => exact ⟨h.1, h.2.1, List.forall_mem_append.2 ⟨hearlier, h.2.2⟩⟩

/-- Two rules, one behind the other: the second one goes on with what the first has logged. -/
lemma Logs.bind {e : Ending α} {next : α → List Token → Ending β}
    (h : e.Logs tokens stop earlier entries)
    (hnext : ∀ value notes rest, e = read value notes rest →
      Traced tokens (earlier ++ entries value) rest →
      (next value rest).Logs tokens stop earlier entries') :
    (e.bind next).Logs tokens stop earlier entries' := by
  cases e with
  | stuck cause notes rest => exact h
  | read value notes rest => exact (hnext value notes rest rfl h.1).after h.2

/-- Some of the earlier entries belong to the phrase. -/
lemma Logs.shift {first : List Entry} {e : Ending α}
    (h : e.Logs tokens stop (earlier ++ first) entries) :
    e.Logs tokens stop earlier (fun value => first ++ entries value) := by
  cases e with
  | stuck cause notes rest => exact ⟨h.1.forget, h.2⟩
  | read value notes rest =>
      obtain ⟨htraced, hnotes⟩ := h
      rw [List.append_assoc] at htraced
      exact ⟨htraced, hnotes⟩

lemma logs_read {value : α} {rest : List Token}
    (h : Traced tokens (earlier ++ entries value) rest) :
    (read value [] rest).Logs tokens stop earlier entries :=
  ⟨h, List.forall_mem_nil _⟩

/-- A rule that gets stuck at the next token. -/
lemma logs_stuck {rest : List Token} {expectation : Expectation} (h : Traced tokens earlier rest) :
    (stuck ⟨rest.headD stop, expectation⟩ [] rest : Ending α).Logs tokens stop earlier entries := by
  refine ⟨h, ?_, List.forall_mem_nil _⟩
  cases rest with
  | nil => exact .inr rfl
  | cons token rest => exact .inl (h.mem List.mem_cons_self)

/-- A symbol that has to follow a phrase adds nothing. -/
lemma logs_close {symbol : Symbol} {missing : Expectation} {value : α} {rest : List Token}
    (h : Traced tokens (earlier ++ entries value) rest) :
    (close stop symbol missing value rest).Logs tokens stop earlier entries := by
  cases rest with
  | nil => exact logs_stuck h.forget
  | cons token rest =>
      rw [close]
      split
      · exact logs_read h.tail
      · exact logs_stuck h.forget

end Ending

namespace Grammar

variable (tokens : List Token) (stop : Token)

/-! ### Expressions -/

/-- A phrase of a single token is one entry. -/
lemma atom?_entries {token : Token} {phrase : Expr} (h : atom? token = some phrase) :
    ∃ entry : Entry, phrase.entries = [entry] ∧ entry.WrittenBy token := by
  rw [atom?] at h
  split at h <;> cases h
  case h_1 hkind => exact ⟨_, rfl, .falseWord hkind⟩
  case h_2 hkind => exact ⟨_, rfl, .trueWord hkind⟩
  case h_3 hkind => exact ⟨_, rfl, .nilWord hkind⟩
  case h_4 hkind => exact ⟨_, rfl, .number hkind (literalValue_eq_iff.1 rfl)⟩
  case h_5 hkind => exact ⟨_, rfl, .string hkind (literalValue_eq_iff.1 rfl)⟩
  case h_6 hkind => exact ⟨_, rfl, .name hkind⟩

/-- An assignment has the entries of both its sides. Without a variable to assign to, those of
the right side are dropped. -/
lemma assignment_logs {tokens : List Token} {stop equals : Token} {target value : Expr}
    {earlier : List Entry} {rest : List Token} (hequals : equals ∈ tokens)
    (h : Traced tokens (earlier ++ (target.entries ++ value.entries)) rest) :
    (Ending.read (assignment equals target value).1 (assignment equals target value).2
      rest).Logs tokens stop earlier Expr.entries := by
  cases target with
  | read name => exact Ending.logs_read h
  | literal | grouping | unary | binary | assign =>
      rw [← List.append_assoc] at h
      exact ⟨h.forget, List.forall_mem_singleton.2 (.inl hequals)⟩

/-- **What the rules of expressions read is written in the tokens that they take**, in this
order, behind all that has been read before. -/
theorem rules_log :
    (∀ rest earlier, Traced tokens earlier rest →
      (expression stop rest).ending.Logs tokens stop earlier Expr.entries) ∧
    (∀ level rest earlier, Traced tokens earlier rest →
      (binary stop level rest).ending.Logs tokens stop earlier Expr.entries) ∧
    (∀ level left rest earlier, Traced tokens (earlier ++ left.entries) rest →
      (chain stop level left rest).ending.Logs tokens stop earlier Expr.entries) ∧
    (∀ level rest earlier, Traced tokens earlier rest →
      (operand stop level rest).ending.Logs tokens stop earlier Expr.entries) ∧
    (∀ rest earlier, Traced tokens earlier rest →
      (unary stop rest).ending.Logs tokens stop earlier Expr.entries) ∧
    (∀ token rest earlier, Traced tokens earlier (token :: rest) →
      (primary stop token rest).ending.Logs tokens stop earlier Expr.entries) := by
  refine rule_induction stop ?expression ?binary ?chain_nil ?chain_end ?chain_step
    ?operand_tighter ?operand_unary ?unary_nil ?unary_operator ?unary_primary ?primary_paren
    ?primary_atom ?primary_other
  case expression =>
      intro rest ihtarget ihvalue earlier h
      rw [expression_ending]
      refine (ihtarget earlier h).bind ?_
      intro target notes behind hread htarget
      cases behind with
      | nil => exact Ending.logs_read htarget
      | cons equals rest' =>
          rw [behindTarget]
          split
          case isTrue hequals =>
              refine (ihvalue target notes equals rest' hread hequals _ htarget.tail).shift.bind ?_
              intro value _ rest'' _ hvalue
              exact assignment_logs (htarget.mem List.mem_cons_self) hvalue
          case isFalse => exact Ending.logs_read htarget
  case binary =>
      intro level rest ihoperand ihchain earlier h
      rw [binary_ending]
      refine (ihoperand earlier h).bind ?_
      intro left notes rest' hread hleft
      exact ihchain left notes rest' hread earlier hleft
  case chain_nil =>
      intro level left earlier h
      rw [chain_nil]
      exact Ending.logs_read h
  case chain_end =>
      intro level left operator rest hop earlier h
      rw [chain_of_none stop hop]
      exact Ending.logs_read h
  case chain_step =>
      intro level left operator rest op hop ihoperand ihchain earlier h
      have hoperator : (Entry.binary op operator).WrittenBy operator :=
        .binary (ofKindAt?_eq_some_iff.1 hop).1
      rw [chain_of_some stop hop]
      -- the left operand and the operator are among the earlier entries until now
      refine (ihoperand _ (h.write hoperator)).shift.shift.bind ?_
      intro right notes rest' hread hright
      exact ihchain right notes rest' hread earlier hright
  case operand_tighter =>
      intro level tighter rest htighter ih
      rwa [operand_of_some stop htighter]
  case operand_unary =>
      intro level rest htighter ih
      rwa [operand_of_none stop htighter]
  case unary_nil =>
      intro earlier h
      rw [unary_nil]
      exact Ending.logs_stuck h
  case unary_operator =>
      intro operator rest op hop ih earlier h
      have hoperator : (Entry.unary op operator).WrittenBy operator :=
        .unary (UnaryOp.ofKind?_eq_some_iff.1 hop)
      rw [unary_of_some stop hop]
      refine (ih _ (h.write hoperator)).shift.bind ?_
      intro operand _ rest' _ hoperand
      exact Ending.logs_read hoperand
  case unary_primary =>
      intro token rest hop ih
      rwa [unary_of_none stop hop]
  case primary_paren =>
      intro token rest htoken ih earlier h
      rw [primary_of_paren stop htoken]
      refine (ih earlier h.tail).bind ?_
      intro inner _ rest' _ hinner
      exact Ending.logs_close hinner
  case primary_atom =>
      intro token rest phrase hatom earlier h
      obtain ⟨entry, hentries, hentry⟩ := atom?_entries hatom
      rw [primary_of_some stop hatom]
      exact Ending.logs_read (hentries ▸ h.write hentry)
  case primary_other =>
      intro token rest hatom hparen earlier h
      rw [primary_of_none stop hatom hparen]
      exact Ending.logs_stuck h

variable {tokens} {rest : List Token} {earlier : List Entry}

lemma expression_logs (h : Traced tokens earlier rest) :
    (expression stop rest).ending.Logs tokens stop earlier Expr.entries :=
  (rules_log tokens stop).1 rest earlier h

/-! ### Statements -/

/-- An expression and the semicolon behind it. -/
lemma closedExpression_logs {missing : Expectation} {f : Expr → Statement}
    (hf : ∀ value, (f value).entries = value.entries) (h : Traced tokens earlier rest) :
    ((expression stop rest).ending.bind fun value =>
      Ending.close stop .semicolon missing (f value)).Logs tokens stop earlier
        Statement.entries := by
  refine (expression_logs stop h).bind ?_
  intro value _ rest' _ hvalue
  exact Ending.logs_close (by rwa [hf])

lemma initializer_logs {name : Token} (h : Traced tokens (earlier ++ [.name name]) rest) :
    (initializer stop name rest).ending.Logs tokens stop earlier Statement.entries := by
  rw [initializer_ending]
  cases rest with
  | nil => exact Ending.logs_read h
  | cons equals rest =>
      dsimp only
      split
      · refine (expression_logs stop h.tail).shift.bind ?_
        intro initial _ rest' _ hinitial
        exact Ending.logs_read hinitial
      · exact Ending.logs_read h

lemma variableDeclaration_logs (h : Traced tokens earlier rest) :
    (variableDeclaration stop rest).ending.Logs tokens stop earlier Statement.entries := by
  rw [variableDeclaration_ending]
  cases rest with
  | nil => exact Ending.logs_stuck h
  | cons name rest =>
      dsimp only
      split
      case isTrue hname =>
          refine (initializer_logs stop (h.write (.name hname))).bind ?_
          intro declared _ rest' _ hdeclared
          exact Ending.logs_close hdeclared
      case isFalse => exact Ending.logs_stuck h

variable {stop}

/-- A declaration adds its entries, or recovery passes over its tokens. -/
lemma declaration_logs {token : Token}
    (h : (statement stop token rest).ending.Logs tokens stop earlier Statement.entries) :
    (Ending.read (declaration stop token rest).statement?.toList
      (declaration stop token rest).complaints (declaration stop token rest).rest).Logs
        tokens stop earlier Statement.entriesAll := by
  cases hs : (statement stop token rest).ending with
  | read result notes rest' =>
      obtain ⟨hresult, hcomplaints, hrest⟩ := declaration_of_read hs
      rw [hs] at h
      rw [hresult, hcomplaints, hrest]
      refine ⟨?_, h.2⟩
      rw [Option.toList_some, Statement.entriesAll, Statement.entriesAll, List.append_nil]
      exact h.1
  | stuck cause notes rest' =>
      obtain ⟨hresult, hcomplaints, hrest⟩ := declaration_of_stuck hs
      rw [hs] at h
      obtain ⟨htraced, hcause, hnotes⟩ := h
      rw [hresult, hcomplaints, hrest]
      refine ⟨?_, List.forall_mem_append.2 ⟨hnotes, List.forall_mem_singleton.2 hcause⟩⟩
      rw [Option.toList_none, Statement.entriesAll, List.append_nil]
      exact htraced.of_suffix (resume_suffix rest')

variable (tokens stop)

/-- **What the rules of statements read is written in the tokens that they take**, in this
order, behind all that has been read before. -/
theorem statements_log :
    (∀ token rest earlier, Traced tokens earlier (token :: rest) →
      (statement stop token rest).ending.Logs tokens stop earlier Statement.entries) ∧
    (∀ rest earlier, Traced tokens earlier rest →
      (block stop rest).ending.Logs tokens stop earlier Statement.entriesAll) := by
  refine statement_induction stop ?plain ?brace ?block_nil ?block_end ?block_step
  case plain =>
      intro token rest hbrace earlier h
      rw [statement_ending]
      split
      · exact variableDeclaration_logs stop h.tail
      · exact closedExpression_logs stop (fun _ => rfl) h.tail
      · exact absurd ‹_› hbrace
      · exact closedExpression_logs stop (fun _ => rfl) h
  case brace =>
      intro token rest hbrace ih earlier h
      rw [statement_ending, hbrace]
      refine (ih earlier h.tail).bind ?_
      intro body _ rest' _ hbody
      exact Ending.logs_read hbody
  case block_nil =>
      intro earlier h
      rw [block_nil]
      exact Ending.logs_stuck h
  case block_end =>
      intro token rest hbrace earlier h
      rw [block_of_brace stop hbrace]
      refine Ending.logs_read ?_
      rw [Statement.entriesAll, List.append_nil]
      exact h.tail
  case block_step =>
      intro token rest hbrace ih ihblock earlier h
      have hfirst := declaration_logs (ih earlier h)
      rw [block_of_not_brace stop hbrace]
      refine ((ihblock _ hfirst.1).shift.bind ?_).after hfirst.2
      intro body _ rest' _ hbody
      refine Ending.logs_read ?_
      rwa [Statement.entriesAll_append]

/-- All declarations, behind those before. -/
theorem declarations_log (h : Traced tokens earlier rest) :
    Traced tokens (earlier ++ Statement.entriesAll (declarations stop rest).1) [] ∧
      ∀ note ∈ (declarations stop rest).2, note.Concerns tokens stop := by
  induction rest using declarations_induction stop generalizing earlier with
  | nil =>
      rw [declarations_nil]
      exact ⟨by rwa [Statement.entriesAll, List.append_nil], List.forall_mem_nil _⟩
  | cons token rest ih =>
      have hfirst := declaration_logs ((statements_log tokens stop).1 token rest earlier h)
      obtain ⟨hlater, hnotes⟩ := ih hfirst.1
      rw [declarations_cons]
      refine ⟨?_, List.forall_mem_append.2 ⟨hfirst.2, hnotes⟩⟩
      rwa [Statement.entriesAll_append, ← List.append_assoc]

end Grammar

/-- **Reading neither invents, repeats nor reorders.** The names, operators and literals of
the program in source order come from tokens before the first end marker, each from one of
its own and in the order of these tokens. What is reported is about one of these tokens, with
its line, its column and its lexeme, or about the end marker before which the reader has come to
stand, with the line of this marker. -/
theorem reading_keeps_order (tokens : List Token) :
    (∃ taken, taken.Sublist (Token.beforeEnd tokens) ∧
      List.Forall₂ Entry.WrittenBy
        (Statement.entriesAll (Parse.ofTokens tokens).program) taken) ∧
    ∃ reader stop, Reader.Ends (Reader.ofTokens tokens) {} (.ok (Parse.ofTokens tokens).program)
        reader ∧
      (Reader.terminated tokens)[reader.place]? = some stop ∧ stop.isEnd ∧
      ∀ diagnostic ∈ (Parse.ofTokens tokens).report, ∃ token expectation,
        diagnostic = .atToken token (Expectation.message expectation) ∧
        (token ∈ Token.beforeEnd tokens ∧
            diagnostic = .malformed token.position.line (some token.position.column)
              (.lexeme token.lexeme) (Expectation.message expectation) ∨
          token = stop ∧
            diagnostic = .malformed stop.position.line none .endOfInput
              (Expectation.message expectation)) := by
  obtain ⟨⟨used, hused, hentries⟩, hnotes⟩ :=
    Grammar.declarations_log _ (Token.firstEnd tokens) (Traced.start (Token.beforeEnd tokens))
  rw [List.append_nil] at hused
  obtain ⟨reader, hends, -, hplace, -⟩ := Reader.ofTokens_follows tokens
  refine ⟨?_, reader, Token.firstEnd tokens, hends, hplace, Token.isEnd_firstEnd tokens, ?_⟩
  · obtain ⟨taken, htaken, hsublist⟩ := List.sublistForall₂_iff.1 hentries
    exact ⟨taken, hused ▸ hsublist, htaken⟩
  · intro diagnostic hdiagnostic
    obtain ⟨complaint, hcomplaint, rfl⟩ := List.mem_map.1 hdiagnostic
    refine ⟨complaint.token, complaint.expectation, rfl, ?_⟩
    obtain hmem | hstop := hnotes complaint hcomplaint
    · exact .inl ⟨hmem, if_neg (Token.not_isEnd_of_mem_beforeEnd hmem)⟩
    · refine .inr ⟨hstop, ?_⟩
      rw [Complaint.diagnostic, hstop]
      exact if_pos (Token.isEnd_firstEnd tokens)

/-- Nothing can be assigned to `true`, and nothing is declared without a name. -/
example :
    (Statement.entriesAll
      (Parse.ofTokens (scan "true = a; var = b; \x7b !c; \x7d").tokens).program).map
        (fun | .literal _ => "" | .unary _ t | .binary _ t | .name t => t.lexeme) =
      ["", "!", "c"] := by
  decide +kernel

end Scriptlet
