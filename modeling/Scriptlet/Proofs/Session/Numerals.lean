import Scriptlet.Proofs.Grammar.Written
import Scriptlet.Proofs.Number.Floats
import Scriptlet.Proofs.Session.Output
import Scriptlet.Proofs.Session.Verdict
import Scriptlet.Proofs.Token.Rescan

/-!
Printed numbers are read back.

The text of a finite float is a row of digits, perhaps with a point, behind a minus where the
sign is set. It is scanned as one number, or as a minus and a number, and what follows does not
matter as long as it is no part of a number. The number token carries the float of the digits,
and the minus flips its sign, so the expression has the float as its value.

* `Segment.numeral`: the segments of the text of a finite float.
* `Segment.cut_numeral`: the text is cut into them.
* `Expr.Numeral`: a number, or a number under one minus.
* `Scan.exists_numeral`: the tokens of a numeral, the expression and its value.
* `number_reads_back`: a printed number is read as the number, and printed again alike.
-/

namespace Scriptlet

open Lexical Grammar

/-! ### Segments -/

namespace Segment

/-- A decimal is written as one number. -/
lemma isLexeme_chars (d : Decimal) : IsLexeme ⟨.token .number, d.chars⟩ := by
  have hwhole : Run Digit d.wholeDigits :=
    ⟨d.wholeDigits_ne_nil, fun c hc => isDigit_iff.1 (d.isDigit_of_mem_wholeDigits c hc)⟩
  rw [d.chars_eq]
  split
  case isTrue =>
      rw [List.append_nil]
      exact @isLexeme_of_shape _ _ [] (.whole hwhole)
  case isFalse hpoint =>
      have hfraction : Run Digit d.pointDigits :=
        ⟨hpoint, fun c hc => isDigit_iff.1 (d.isDigit_of_mem_pointDigits c hc)⟩
      exact @isLexeme_of_shape _ _ [] (.decimal hwhole hfraction)

/-- A minus before a digit stands alone. -/
lemma cut_minus {c : Char} (h : c.isDigit = true) (rest : List Char) :
    cut ('-' :: c :: rest) = ⟨.token (.symbol .minus), ['-']⟩ :: cut (c :: rest) := by
  have hnone : Symbol.ofChars? ['-', c] = none := by
    refine ofChars?_eq_none_of_notMem ?_ '-'
    intro s hmem
    have hs : s.chars.all (!·.isDigit) := by cases s <;> decide
    simpa [h] using List.all_eq_true.1 hs c hmem
  have hfirst : first '-' (c :: rest) = symbol '-' (c :: rest) := rfl
  rw [cut, hfirst, symbol, hnone]
  rfl

/-- The segments of the text of a finite float. -/
def numeral (x : Float) : List Segment :=
  let digits : Segment := ⟨.token .number, (Decimal.shortest (Binary64.pattern x)).chars⟩
  if Binary64.isNegative x then [⟨.token (.symbol .minus), ['-']⟩, digits] else [digits]

/-- The segment that ends a statement. -/
def semicolon : Segment := ⟨.token (.symbol .semicolon), [';']⟩

lemma toList_text {x : Float} (h : x.isFinite = true) :
    (Value.number x).text.toList = (numeral x).flatMap (·.text) := by
  have hfinite := Binary64.isFinite_iff.1 h
  rw [Value.text_number, NumberFormat.toList_text _ hfinite.le,
    NumberFormat.magnitude_of_lt _ hfinite, numeral]
  split <;> simp

/-- **The text of a finite float is cut into its sign and its digits.** -/
theorem cut_numeral {x : Float} (h : x.isFinite = true) :
    cut ((Value.number x).text.toList ++ [';']) = numeral x ++ [semicolon] := by
  have hsemicolon : cut [';'] = [semicolon] := by
    have hfirst : first ';' [] = (semicolon, []) := rfl
    rw [cut, hfirst, cut]
  have hdigits := (isLexeme_chars (Decimal.shortest (Binary64.pattern x))).cut_before
    delimiter_semicolon []
  rw [hsemicolon] at hdigits
  rw [toList_text h, numeral]
  split
  case isTrue =>
      obtain ⟨c, rest, hchars, hc⟩ := (Decimal.shortest (Binary64.pattern x)).exists_cons_chars
      simp only [hchars] at hdigits
      simp only [hchars, List.flatMap_cons, List.flatMap_nil, List.append_nil, List.cons_append,
        List.nil_append]
      rw [cut_minus hc, ← List.cons_append, hdigits]
  case isFalse =>
      rw [List.flatMap_singleton]
      exact hdigits

/-- No blank stands at the start of a number. -/
lemma exists_cons_text {x : Float} (h : x.isFinite = true) :
    ∃ c rest, (Value.number x).text.toList = c :: rest ∧ ¬ isBlank c = true := by
  obtain ⟨c, rest, hchars, hc⟩ := (Decimal.shortest (Binary64.pattern x)).exists_cons_chars
  have hblank : isBlank c = false :=
    not_isBlank_of_isWordPart (by rw [isWordPart, hc, Bool.or_true])
  rw [toList_text h, numeral]
  split
  case isTrue =>
      rw [List.flatMap_cons, List.singleton_append]
      exact ⟨'-', _, rfl, by decide⟩
  case isFalse =>
      rw [List.flatMap_singleton, hchars]
      exact ⟨c, rest, rfl, by rw [hblank]; exact Bool.false_ne_true⟩

end Segment

/-! ### Expressions -/

/-- A number, under one minus if a sign is asked for. -/
inductive Expr.Numeral : (negative : Bool) → Expr → Prop where
  | plain (value : Float) : Numeral false (.literal (.number value))
  | negated (operator : Token) (value : Float) :
      Numeral true (.unary .negate operator (.literal (.number value)))

/-- The digits of a finite float denote it without its sign. -/
lemma Literal.ofText?_shortest {x : Float} (h : x.isFinite = true) :
    Literal.ofText? .number (Decimal.shortest (Binary64.pattern x)).chars =
      some (.number (Binary64.ofPattern (Binary64.pattern x))) := by
  rw [ofText?, Decimal.read?_chars, Option.map_some,
    Decimal.toFloat_read_shortest (Binary64.isFinite_iff.1 h).le]

/-- **The segments of a finite float become an expression with this value.** -/
theorem Scan.exists_numeral {x : Float} (h : x.isFinite = true) (source : List Char)
    (cursor : Cursor) :
    ∃ tokens expr semicolon position,
      ofSegments source cursor (Segment.numeral x ++ [.semicolon]) =
        ⟨tokens ++ [semicolon, .endOfInput position], []⟩ ∧
      semicolon.kind = .symbol .semicolon ∧
      Derives .expression tokens expr ∧ expr.Numeral (Binary64.isNegative x) ∧
      ∀ env, expr.evaluate env = (.ok (.number x), env) := by
  have hx := Binary64.eq_ofPattern (Binary64.isFinite_iff.1 h).le
  have hnumber : ∀ position, Derives .primary
      [.ofText .number (Decimal.shortest (Binary64.pattern x)).chars position]
      (.literal (.number (Binary64.ofPattern (Binary64.pattern x)))) :=
    fun _ => .number rfl (.number (Literal.ofText?_shortest h))
  rw [Segment.numeral]
  cases hsign : Binary64.isNegative x with
  | true =>
      rw [hsign, if_pos rfl] at hx
      have hunary : ∀ operator position, OperatorBefore operator.kind .negate → Derives .unary
          [operator, .ofText .number (Decimal.shortest (Binary64.pattern x)).chars position]
          (.unary .negate operator
            (.literal (.number (Binary64.ofPattern (Binary64.pattern x))))) :=
        fun _ position hoperator => .unary hoperator (.primary (hnumber position))
      refine ⟨[_, _], _, _, _, rfl, rfl, (hunary _ _ .negate).mono (by decide), .negated _ _, ?_⟩
      intro env
      conv_rhs => rw [hx]
      rfl
  | false =>
      rw [hsign, if_neg Bool.false_ne_true] at hx
      refine ⟨[_], _, _, _, rfl, rfl, (hnumber _).mono (by decide), .plain _, ?_⟩
      intro env
      conv_rhs => rw [hx]
      rfl

/-! ### Sources -/

/-- A source whose tokens form a statement is read as this statement. -/
lemma read_of_scan {source : String} {tokens : List Token} {statement : Statement}
    (h : DerivesStatement tokens statement)
    (hscan : ∃ position, scan source = ⟨tokens ++ [.endOfInput position], []⟩) :
    read source = ⟨[statement], []⟩ := by
  obtain ⟨position, hscan⟩ := hscan
  have hprogram := DerivesProgram.cons (.statement h) .nil
  rw [List.append_nil] at hprogram
  have hparse : Parse.ofTokens (tokens ++ [.endOfInput position]) = ⟨[statement], []⟩ :=
    Parse.ofTokens_of_derivesProgram hprogram (some position)
  rw [read, hscan, hparse]
  rfl

/-- A finite float with a semicolon behind it is read as one statement. -/
lemma read_numeral {x : Float} (h : x.isFinite = true) :
    ∃ expr, read ((Value.number x).text ++ ";") = ⟨[.expression expr], []⟩ ∧
      expr.Numeral (Binary64.isNegative x) ∧
      ∀ env, expr.evaluate env = (.ok (.number x), env) := by
  obtain ⟨tokens, expr, semicolon, position, hscan, hsemicolon, hderives, hnumeral, hvalue⟩ :=
    Scan.exists_numeral h ((Value.number x).text ++ ";").toList {}
  refine ⟨expr, read_of_scan (.expression hderives hsemicolon) ⟨position, ?_⟩, hnumeral, hvalue⟩
  rw [List.append_assoc, List.singleton_append, ← hscan, ← Segment.cut_numeral h, scan,
    String.toList_append]
  rfl

/-- A finite float is printed by one statement. -/
lemma read_print_numeral {x : Float} (h : x.isFinite = true) :
    ∃ expr, read ("print " ++ (Value.number x).text ++ ";") = ⟨[.print expr], []⟩ ∧
      ∀ env, expr.evaluate env = (.ok (.number x), env) := by
  let source := ("print " ++ (Value.number x).text ++ ";").toList
  let word : Segment := ⟨.token (.keyword .print), Keyword.print.chars⟩
  let blank : Segment := ⟨.blank, [' ']⟩
  have hcut : Segment.cut source = word :: blank :: (Segment.numeral x ++ [.semicolon]) := by
    have hword : word.IsLexeme := Segment.isLexeme_of_shape (@Shape.keyword .print [])
    obtain ⟨c, rest, htext, hc⟩ := Segment.exists_cons_text h
    have hsource : source = word.text ++ ' ' :: (Value.number x).text.toList ++ [';'] := by
      simp only [source, String.toList_append]
      rfl
    rw [hsource, List.append_assoc, List.cons_append, hword.cut_before Segment.delimiter_space,
      ← Segment.cut_numeral h, htext, List.cons_append, Segment.cut_space hc]
  obtain ⟨tokens, expr, semicolon, position, hscan, hsemicolon, hderives, -, hvalue⟩ :=
    Scan.exists_numeral h source ((({} : Cursor).pass word).pass blank)
  let token := Token.ofText (.keyword .print) Keyword.print.chars (({} : Cursor).position source)
  have hstatement : DerivesStatement (token :: tokens ++ [semicolon]) (.print expr) :=
    .print rfl hderives hsemicolon
  refine ⟨expr, read_of_scan hstatement ⟨position, ?_⟩, hvalue⟩
  have hfront : scan ("print " ++ (Value.number x).text ++ ";") =
      Scan.prepend word (({} : Cursor).position source)
        (Scan.ofSegments source ((({} : Cursor).pass word).pass blank)
          (Segment.numeral x ++ [.semicolon])) := by
    rw [scan, hcut]
    rfl
  rw [hfront, hscan, List.append_assoc]
  rfl

/-- A statement that prints a value writes its text and a line feed, and nothing else. -/
lemma Session.interpret_print {W : Type} [Sink W] (session : Session W) {expr : Expr}
    {value : Value} (h : ∀ env, expr.evaluate env = (.ok value, env)) :
    let written := Sink.write session.sink (utf8 (value.text ++ "\n"))
    let flushed := Sink.flush written.2
    (session.interpret [.print expr]).2 = ⟨session.environment, flushed.2⟩ ∧
    (written.1 = .ok () → flushed.1 = .ok () → (session.interpret [.print expr]).1 = []) := by
  intro written flushed
  have hexecute : Statement.executeAll [.print expr] session =
      (written.1.mapError .output, ⟨session.environment, written.2⟩) := by
    rw [Statement.executeAll_cons, Statement.execute_print, Session.evaluate, h]
    simp only [andThen, Session.print, Statement.executeAll, written]
    rcases Sink.write session.sink (utf8 (value.text ++ "\n")) with ⟨cause | done, after⟩ <;> rfl
  obtain ⟨hsession, hreport⟩ := session.interpret_eq hexecute
  refine ⟨hsession, ?_⟩
  intro hwritten hflushed
  rw [hreport (.inr hflushed), hwritten]
  rfl

/-- **A printed number reads back as itself.** The text of a finite float, with a semicolon
behind it, is read without a complaint as one statement. Its expression is a number, under one
minus exactly if the sign of the float is set, and its value is the very same float. So printing
that text asks the receiver of the output, whatever it is, for this text and a line feed, and for
nothing else, and leaves the variables as they were. -/
theorem number_reads_back {W : Type} [Sink W] {x : Float} (h : x.isFinite = true) :
    (∃ expr, read ((Value.number x).text ++ ";") = ⟨[.expression expr], []⟩ ∧
      expr.Numeral (Binary64.isNegative x) ∧
      ∀ env, expr.evaluate env = (.ok (.number x), env)) ∧
    ∀ session : Session W,
      let source := "print " ++ (Value.number x).text ++ ";"
      let written := Sink.write session.sink (utf8 ((Value.number x).text ++ "\n"))
      let flushed := Sink.flush written.2
      (session.run source).2 = ⟨session.environment, flushed.2⟩ ∧
      (written.1 = .ok () → flushed.1 = .ok () → (session.run source).1 = []) := by
  refine ⟨read_numeral h, ?_⟩
  intro session source
  obtain ⟨expr, hread, hvalue⟩ := read_print_numeral h
  have hrun : session.run source = session.interpret [.print expr] := by
    rw [session.run_of_read (congrArg Reading.report hread)]
    exact congrArg session.interpret (congrArg Reading.program hread)
  rw [hrun]
  exact session.interpret_print hvalue

/-- The float nearest to a tenth below zero, with a variable in the session. -/
theorem number_reads_back_minus_tenth :
    let x := Float.ofBits 0xBFB999999999999A
    let session := (({} : Session).run "var a = 1;").2
    x.isFinite = true ∧ (Value.number x).text = "-0.1" ∧
    (∃ expr, read "-0.1;" = ⟨[.expression expr], []⟩ ∧ expr.Numeral true ∧
      ∀ env, expr.evaluate env = (.ok (.number x), env)) ∧
    (session.run "print -0.1;").2.sink.written = utf8 "-0.1\n" := by
  intro x session
  have hfinite : x.isFinite = true := by decide +kernel
  have htext : (Value.number x).text = "-0.1" := by decide +kernel
  have hsign : Binary64.isNegative x = true := by decide +kernel
  obtain ⟨hread, hrun⟩ := @number_reads_back Buffer _ x hfinite
  rw [htext, hsign] at hread
  have hsource : "print " ++ "-0.1" ++ ";" = "print -0.1;" := by decide
  obtain ⟨hsession, -⟩ := hrun session
  simp only [htext, hsource] at hsession
  refine ⟨hfinite, htext, hread, ?_⟩
  rw [hsession]
  decide +kernel

end Scriptlet
