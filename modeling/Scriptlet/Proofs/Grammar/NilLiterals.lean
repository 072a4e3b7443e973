import Scriptlet.Proofs.Grammar.Order
import Scriptlet.Proofs.Token.Literals

/-!
Where nil literals come from.

A number or string token without a literal is read as nil, just as the word `nil` is. So tokens
are counted that are read as nil, for whichever of the two reasons. A program has no more nil
literals than there are such tokens, and just as many if there is no complaint. Scanned numbers
and strings always carry their literals, so for scanned tokens it is the words that are counted.

* `Token.readsNil`: tokens that are read as nil.
* `Statement.countNil`: the nil literals of a program.
* `DerivesProgram.countP_readsNil`: the nil literals of tokens that are in the grammar.
* `countNil_declarations_le`: the nil literals of any tokens.
* `literals_of_source`: the literals of a source and of its program.
-/

namespace Scriptlet

/-- The token is read as nil: it is the word, or a number or string without a literal. -/
def Token.readsNil (t : Token) : Bool :=
  t.kind == .keyword .nil || (t.kind == .number || t.kind == .string) && t.literal.isNone

/-- The nil literals of a program and inside its blocks. -/
def Statement.countNil (program : List Statement) : Nat :=
  (entriesAll program).count (.literal .nil)

/-- A literal token is read as nil exactly if it is worth nil. -/
lemma Grammar.Carries.eq_nil_iff {token : Token} {value : Value} (h : Carries token value) :
    value = .nil ↔ token.literal = Option.none := by
  cases h with
  | number h => simp [h]
  | string h => simp [h]
  | none h => simp [h]

/-- Nil literals come from tokens that are read as nil, and all else from others. -/
lemma Entry.WrittenBy.eq_nil_iff {entry : Entry} {token : Token} (h : entry.WrittenBy token) :
    entry = .literal .nil ↔ token.readsNil := by
  cases h with
  | number h h' => simp [Token.readsNil, h, h'.eq_nil_iff]
  | string h h' => simp [Token.readsNil, h, h'.eq_nil_iff]
  | trueWord h | falseWord h | nilWord h | unary h | binary h | name h => simp [Token.readsNil, h]

/-- Entries, each with its token. -/
lemma countP_readsNil_of_writtenBy {entries : List Entry} {tokens : List Token}
    (h : List.Forall₂ Entry.WrittenBy entries tokens) :
    tokens.countP Token.readsNil = entries.count (.literal .nil) := by
  induction h with
  | nil => rfl
  | @cons entry token _ _ hentry _ ih =>
      have hnil : (entry == .literal .nil) = token.readsNil := by
        rw [Bool.eq_iff_iff, beq_iff_eq, hentry.eq_nil_iff]
      rw [List.countP_cons, List.count_cons, ih, hnil]

/-! ### Programs of the grammar -/

namespace Grammar

/-- What an operator and its right operand add to a level. -/
def Step.entries (step : Step) : List Entry := .binary step.op step.operator :: step.right.entries

lemma entries_foldl_onto (steps : List Step) (first : Expr) :
    (steps.foldl Step.onto first).entries = first.entries ++ steps.flatMap Step.entries := by
  induction steps generalizing first with
  | nil => simp
  | cons step steps ih => simp [ih, Step.onto, Step.entries, Expr.entries]

mutual

theorem Derives.countP_readsNil {phrase : Phrase} {tokens : List Token} {tree : Expr} :
    Derives phrase tokens tree →
      tokens.countP Token.readsNil = tree.entries.count (.literal .nil)
  | .expression h => h.countP_readsNil
  | .assign hname hequals h => by
      have hvalue := h.countP_readsNil
      simp [Token.readsNil, hname, hequals, Expr.entries, hvalue]
  | .equality h => h.countP_readsNil
  | .level h h' => by
      rw [entries_foldl_onto, List.countP_append, List.count_append, h.countP_readsNil,
        h'.countP_readsNil]
  | .unary hop h => by
      have hoperand := h.countP_readsNil
      simp [Token.readsNil, hop.kind_eq, Expr.entries, hoperand]
  | .primary h => h.countP_readsNil
  | .trueWord h => countP_readsNil_of_writtenBy (.cons (.trueWord h) .nil)
  | .falseWord h => countP_readsNil_of_writtenBy (.cons (.falseWord h) .nil)
  | .nilWord h => countP_readsNil_of_writtenBy (.cons (.nilWord h) .nil)
  | .number h h' => countP_readsNil_of_writtenBy (.cons (.number h h') .nil)
  | .string h h' => countP_readsNil_of_writtenBy (.cons (.string h h') .nil)
  | .identifier h => countP_readsNil_of_writtenBy (.cons (.name h) .nil)
  | .grouping hleft hright h => by
      have hinner := h.countP_readsNil
      simp [Token.readsNil, hleft, hright, Expr.entries, hinner]

theorem Repeats.countP_readsNil {level : Precedence} {tokens : List Token} {steps : List Step} :
    Repeats level tokens steps →
      tokens.countP Token.readsNil = (steps.flatMap Step.entries).count (.literal .nil)
  | .nil => rfl
  | .cons hop h h' => by
      have hright := h.countP_readsNil
      have hmore := h'.countP_readsNil
      simp [Token.readsNil, hop.kind_eq, Step.entries, hright, hmore]

end

mutual

theorem DerivesDeclaration.countP_readsNil {tokens : List Token} {tree : Statement} :
    DerivesDeclaration tokens tree →
      tokens.countP Token.readsNil = tree.entries.count (.literal .nil)
  | .bare hword hname hsemicolon => by
      simp [Token.readsNil, hword, hname, hsemicolon, Statement.entries]
  | .initialized hword hname hequals h hsemicolon => by
      have hinitial := h.countP_readsNil
      simp [Token.readsNil, hword, hname, hequals, hsemicolon, Statement.entries, hinitial]
  | .statement h => h.countP_readsNil

theorem DerivesStatement.countP_readsNil {tokens : List Token} {tree : Statement} :
    DerivesStatement tokens tree →
      tokens.countP Token.readsNil = tree.entries.count (.literal .nil)
  | .print hword h hsemicolon => by
      have hvalue := h.countP_readsNil
      simp [Token.readsNil, hword, hsemicolon, Statement.entries, hvalue]
  | .block hleft h hright => by
      have hbody := h.countP_readsNil
      simp [Token.readsNil, hleft, hright, Statement.entries, hbody, Statement.countNil]
  | .expression h hsemicolon => by
      have hvalue := h.countP_readsNil
      simp [Token.readsNil, hsemicolon, Statement.entries, hvalue]

/-- **Tokens of the grammar** have one token that is read as nil for each nil literal. -/
theorem DerivesProgram.countP_readsNil {tokens : List Token} {program : List Statement} :
    DerivesProgram tokens program →
      tokens.countP Token.readsNil = Statement.countNil program
  | .nil => rfl
  | .cons h h' => by
      rw [List.countP_append, h.countP_readsNil, h'.countP_readsNil, Statement.countNil,
        Statement.countNil, Statement.entriesAll, List.count_append]

end

/-! ### All programs -/

/-- **Any tokens** have no more nil literals than tokens that are read as nil. -/
theorem countNil_declarations_le (stop : Token) (tokens : List Token) :
    Statement.countNil (declarations stop tokens).1 ≤ tokens.countP Token.readsNil := by
  obtain ⟨⟨used, hused, hentries⟩, -⟩ := declarations_log tokens stop (Traced.start tokens)
  obtain ⟨taken, htaken, hsublist⟩ := List.sublistForall₂_iff.1 hentries
  rw [List.append_nil] at hused
  rw [List.nil_append] at htaken
  rw [Statement.countNil, ← countP_readsNil_of_writtenBy htaken, hused]
  exact hsublist.countP_le

end Grammar

/-! ### Scanned tokens -/

/-- Of scanned tokens only the word is read as nil. -/
lemma countP_readsNil_scan (source : String) :
    ((scan source).tokens.takeWhile (!·.isEnd)).countP Token.readsNil =
      (scan source).tokens.countP (·.kind = .keyword .nil) := by
  obtain ⟨tokens, position, htokens, hend⟩ := exists_tokens_scan source
  have htake : (tokens ++ [Token.endOfInput position]).takeWhile (!·.isEnd) = tokens := by
    rw [Parse.takeWhile_append_of_forall hend]
    exact List.append_nil tokens
  have hnil : ∀ token ∈ tokens, token.readsNil ↔ token.kind = .keyword .nil := by
    intro token htoken
    have hscanned : token ∈ (scan source).tokens := by
      rw [htokens]
      exact List.mem_append_left _ htoken
    rw [Token.readsNil, Bool.or_eq_true, beq_iff_eq]
    refine or_iff_left ?_
    intro hmissing
    obtain ⟨hkind, hnone⟩ := Bool.and_eq_true_iff.1 hmissing
    rw [Bool.or_eq_true, beq_iff_eq, beq_iff_eq, ← isSome_literal_iff hscanned] at hkind
    rw [Option.isNone_iff_eq_none] at hnone
    rw [hnone] at hkind
    cases hkind
  have hmarker : [Token.endOfInput position].countP (·.kind = .keyword .nil) = 0 := rfl
  rw [htokens, htake, List.countP_append, hmarker, Nat.add_zero]
  refine List.countP_congr ?_
  intro token htoken
  rw [hnil token htoken, decide_eq_true_iff]

/-- **The literals of a source.** Of its tokens, numbers and strings carry literals and no others
do. The literal of a number is the float nearest to what its digits write; the literal of a
string is what stands between its quotes, and this may be any text without a quote. So a program
has a nil literal only where the word stands: there are no more of them than words, whatever is
complained about, and as many if there is no complaint. -/
theorem literals_of_source (source : String) :
    let tokens := (scan source).tokens
    let parsed := Parse.ofTokens tokens
    let words := tokens.countP (·.kind = .keyword .nil)
    (∀ token ∈ tokens, (token.literal.isSome ↔ token.kind = .number ∨ token.kind = .string)) ∧
    (∀ token ∈ tokens, token.kind = .number →
      ∃ value x, Lexical.Denotes token.lexeme.toList value ∧ token.literal = some (.number x) ∧
        Binary64.IsNearest value (Binary64.pattern x) ∧ Binary64.isNegative x = false) ∧
    (∀ token ∈ tokens, token.kind = .string →
      ∃ body, '"' ∉ body.toList ∧ token.lexeme = "\"" ++ body ++ "\"" ∧
        token.literal = some (.string body)) ∧
    (∀ body : String, '"' ∉ body.toList →
      ∃ position position', scan ("\"" ++ body ++ "\"") =
        ⟨[⟨.string, "\"" ++ body ++ "\"", some (.string body), position⟩,
          .endOfInput position'], []⟩) ∧
    Statement.countNil parsed.program ≤ words ∧
    (parsed.report = [] → Statement.countNil parsed.program = words) := by
  intro tokens parsed words
  have hwords : _ = words := countP_readsNil_scan source
  refine ⟨fun _ => isSome_literal_iff, fun _ => number_of_mem_scan, fun _ => string_of_mem_scan,
    fun _ => scan_quoted, ?_, ?_⟩
  · rw [← hwords]
    exact Grammar.countNil_declarations_le _ _
  · intro hreport
    have hcomplaints : parsed.complaints = [] := List.map_eq_nil_iff.1 hreport
    have hderives := Grammar.derives_of_declarations hcomplaints
    rw [← hwords, hderives.countP_readsNil]
    rfl

/-- One word is compared with a string over two lines, and one stands in a block. A number ends in
a zero that does not matter, and the empty string is a string too. -/
theorem literals_of_source_in_block :
    let source := "print nil == \"é\n\" + 0.50; \x7b nil; \x7d"
    let tokens := (scan source).tokens
    let parsed := Parse.ofTokens tokens
    (∃ token ∈ tokens, token.kind = .number ∧ ∃ value x,
      Lexical.Denotes token.lexeme.toList value ∧ token.literal = some (.number x) ∧
        Binary64.IsNearest value (Binary64.pattern x)) ∧
    (∃ token ∈ tokens, token.kind = .string ∧ ∃ body,
      token.lexeme = "\"" ++ body ++ "\"" ∧ token.literal = some (.string body)) ∧
    (∃ position position', scan "\"\"" =
      ⟨[⟨.string, "\"\"", some (.string ""), position⟩, .endOfInput position'], []⟩) ∧
    parsed.report = [] ∧ tokens.countP (·.kind = .keyword .nil) = 2 ∧
      Statement.countNil parsed.program = 2 := by
  intro source tokens parsed
  have hnumber : ∃ token ∈ tokens, token.kind = .number := by decide +kernel
  have hstring : ∃ token ∈ tokens, token.kind = .string := by decide +kernel
  have hreport : parsed.report = [] := by decide +kernel
  have hwords : tokens.countP (·.kind = .keyword .nil) = 2 := by decide +kernel
  obtain ⟨-, hnumbers, hstrings, hquoted, -, hcount⟩ := literals_of_source source
  refine ⟨?_, ?_, hquoted "" (by decide), hreport, hwords, (hcount hreport).trans hwords⟩
  · obtain ⟨token, hmem, hkind⟩ := hnumber
    obtain ⟨value, x, hdenotes, hliteral, hnearest, -⟩ := hnumbers token hmem hkind
    exact ⟨token, hmem, hkind, value, x, hdenotes, hliteral, hnearest⟩
  · obtain ⟨token, hmem, hkind⟩ := hstring
    obtain ⟨body, -, hlexeme, hliteral⟩ := hstrings token hmem hkind
    exact ⟨token, hmem, hkind, body, hlexeme, hliteral⟩

end Scriptlet
