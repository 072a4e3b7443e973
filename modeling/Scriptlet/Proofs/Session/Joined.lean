import Scriptlet.Proofs.Grammar.Locality
import Scriptlet.Proofs.Grammar.Relocation
import Scriptlet.Proofs.Session.Simulation
import Scriptlet.Proofs.Session.Verdict
import Scriptlet.Proofs.Token.Seam

/-!
Two sources in one session run as one source.

The sources are put together with a line feed between them. Scanning starts afresh at
the line feed, reading goes on behind the last statement of the first source, and the
variables and the output are all that a run hands on to the next. So the joined source
does what the two do one after the other, unless the first one ends with a fault, which
ends the joined source, too.

* `read_joined`: the program of the joined source.
* `Session.record_append_of_ok`, `Session.record_append_of_error`: the record of one
  program behind another.
* `Session.interpret_joined`: two programs in one session, and the joined program.
* `run_joined`: two sources in one session, and the joined source.
-/

namespace Scriptlet

/-! ### Reading -/

/-- A diagnostic about a token moves with the token. -/
lemma Complaint.diagnostic_below (lines : Nat) (c : Complaint) :
    (c.moved (Position.below lines)).diagnostic = c.diagnostic.below lines := by
  rw [diagnostic, diagnostic, moved, Diagnostic.atToken, Diagnostic.atToken, Token.isEnd_moved]
  split <;> rfl

/-- Tokens that are read without a complaint are read in the same way before others. -/
lemma Parse.ofTokens_append_of_report {tokens : List Token} {position : Position}
    (hend : ∀ token ∈ tokens, ¬ token.isEnd)
    (h : (ofTokens (tokens ++ [.endOfInput position])).report = []) (more : List Token) :
    (ofTokens (tokens ++ more)).program =
        (ofTokens (tokens ++ [.endOfInput position])).program ++ (ofTokens more).program ∧
      (ofTokens (tokens ++ more)).complaints = (ofTokens more).complaints := by
  obtain ⟨stop, halone, -⟩ := ofTokens_append_of_forall hend [.endOfInput position]
  obtain ⟨stop', hall, hmore⟩ := ofTokens_append_of_forall hend more
  have hmarker : [Token.endOfInput position].takeWhile (!·.isEnd) = [] := rfl
  rw [hmarker, List.append_nil] at halone
  have hcomplaints : (Grammar.declarations stop tokens).2 = [] := by
    rw [halone] at h
    exact List.map_eq_nil_iff.1 h
  have hsplit : Grammar.declarations stop' (tokens ++ more.takeWhile (!·.isEnd)) = _ :=
    Grammar.declarations_append_of_complaints hcomplaints
  rw [hall, hmore, halone, hsplit, hcomplaints]
  exact ⟨rfl, rfl⟩

/-- **A source behind one that is read without a complaint** is read as if it stood
alone, further down. -/
theorem read_joined {s : String} (hs : (read s).report = []) (hcomment : ¬ EndsInComment s)
    (t : String) :
    (read (s ++ "\n" ++ t)).program =
        (read s).program ++
          (read t).program.map (Statement.moved (Position.below (1 + s.toList.count '\n'))) ∧
      (read (s ++ "\n" ++ t)).report =
        (read t).report.map (Diagnostic.below (1 + s.toList.count '\n')) := by
  obtain ⟨hlexical, hgrammar⟩ := List.append_eq_nil_iff.1 hs
  obtain ⟨tokens, position, htokens, hend⟩ := exists_tokens_scan s
  have hscan := scan_append_newline (not_endsInString_of_report hlexical) hcomment t
  have hmoved := Parse.ofTokens_moved (Position.below (1 + s.toList.count '\n'))
    (exists_isEnd_scan t)
  have hreport := Parse.report_moved (Complaint.diagnostic_below (1 + s.toList.count '\n'))
    (exists_isEnd_scan t)
  rw [htokens] at hgrammar
  obtain ⟨hprogram, hcomplaints⟩ := Parse.ofTokens_append_of_report hend hgrammar
    ((scan t).tokens.map (Token.moved (Position.below (1 + s.toList.count '\n'))))
  have hall : (scan (s ++ "\n" ++ t)).tokens = tokens ++
      (scan t).tokens.map (Token.moved (Position.below (1 + s.toList.count '\n'))) := by
    rw [hscan, Scan.append, htokens, List.dropLast_concat]
    rfl
  constructor
  · rw [read, hall, hprogram, hmoved, ← htokens]
    rfl
  · rw [read, hall, Parse.report, hcomplaints, ← Parse.report, hreport, hscan, Scan.append,
      hlexical, List.nil_append, read, List.map_append]
    rfl

/-! ### Running -/

/-- The token that a fault is blamed on has another position, and nothing else is
different. -/
lemma Fault.diagnostic_below (lines : Nat) (fault : Fault) :
    (fault.map (Token.moved (Position.below lines))).diagnostic =
      fault.diagnostic.below lines := by
  cases fault <;> rfl

namespace Session

variable {env : Environment} {program : List Statement}

/-- A program behind one that fails is not run. -/
lemma record_append_of_error {fault : Fault} (h : (record env program).1 = .error fault)
    (more : List Statement) : record env (program ++ more) = record env program := by
  rw [record] at h ⊢
  rw [Statement.executeAll_append, record]
  rcases hrun : Statement.executeAll program (⟨env, {}⟩ : Session Log) with ⟨fault' | done, between⟩
  · rfl
  · rw [hrun] at h
    cases h

/-- A program behind one that succeeds goes on with the variables that it has left. -/
lemma record_append_of_ok (h : (record env program).1 = .ok ()) (more : List Statement) :
    let between := (record env program).2.environment
    (record env (program ++ more)).1 = (record between more).1 ∧
      (record env (program ++ more)).2.environment = (record between more).2.environment ∧
      output env (program ++ more) = output env program ++ output between more := by
  intro between
  have hall : record env (program ++ more) =
      Statement.executeAll more (record env program).2 := by
    rw [record] at h ⊢
    rw [Statement.executeAll_append, record]
    rcases hrun : Statement.executeAll program (⟨env, {}⟩ : Session Log) with
      ⟨fault | done, after⟩
    · rw [hrun] at h
      cases h
    · rfl
  rw [executeAll_of_reliable _ (Log.reliable _)] at hall
  refine ⟨by rw [hall], by rw [hall], ?_⟩
  rw [output, hall, Log.lines_writeAll, List.flatten_append]
  rfl

/-- **Two programs run one after the other as one program**, of which the second one
stands further down, unless the first one ends with a fault. -/
theorem interpret_joined {W : Type} [Sink W] {received : W → List UInt8} (session : Session W)
    (hsink : Sink.Accepts received none session.sink) (program more : List Statement)
    (lines : Nat) :
    let first := session.interpret program
    let second := first.2.interpret more
    let joined := session.interpret (program ++ more.map (Statement.moved (Position.below lines)))
    (first.1.hasFault = false →
      received joined.2.sink = received second.2.sink ∧
      joined.2.environment = second.2.environment ∧
      joined.1 = second.1.map (Diagnostic.below lines)) ∧
    (first.1.hasFault = true →
      received joined.2.sink = received first.2.sink ∧
      joined.2.environment = first.2.environment ∧ joined.1 = first.1) := by
  intro first second joined
  obtain ⟨hreport, henv, hbytes, haccepts⟩ := session.interpret_of_endless hsink program
  obtain ⟨hreport₂, henv₂, hbytes₂, -⟩ := first.2.interpret_of_endless haccepts more
  obtain ⟨hreport', henv', hbytes', -⟩ := session.interpret_of_endless hsink
    (program ++ more.map (Statement.moved (Position.below lines)))
  rw [henv] at hreport₂ henv₂ hbytes₂
  cases houtcome : (record session.environment program).1 with
  | ok =>
      have hnone : first.1 = [] := by rw [hreport, houtcome, Report.ofOutcome]
      rw [hnone]
      refine ⟨fun _ => ?_, fun hfault => absurd hfault Bool.false_ne_true⟩
      obtain ⟨houtcome', hleft, hprinted⟩ := record_append_of_ok houtcome
        (more.map (Statement.moved (Position.below lines)))
      obtain ⟨hmoved, hleft', hprinted'⟩ := equal_simulation.record_moved
        (Fault.diagnostic_below lines) (Eq.refl (record session.environment program).2.environment)
        more
      refine ⟨?_, ?_, ?_⟩
      · calc received joined.2.sink
            = received session.sink ++ (output session.environment program ++
                output (record session.environment program).2.environment more) := by
              rw [hbytes', hprinted, hprinted']
          _ = received first.2.sink ++
                output (record session.environment program).2.environment more := by
              rw [hbytes, List.append_assoc]
          _ = received second.2.sink := hbytes₂.symm
      · rw [henv', hleft, ← hleft', henv₂]
      · rw [hreport', houtcome', hmoved, hreport₂]
  | error fault =>
      have hone : first.1 = [fault.diagnostic] := by rw [hreport, houtcome, Report.ofOutcome]
      have hsame := record_append_of_error houtcome
        (more.map (Statement.moved (Position.below lines)))
      rw [output, hsame] at hbytes'
      rw [hsame] at hreport' henv'
      refine ⟨fun hfault => ?_, fun _ => ⟨?_, ?_, ?_⟩⟩
      · rw [hone] at hfault
        cases hfault
      · rw [hbytes', hbytes]
        rfl
      · rw [henv', henv]
      · rw [hreport', hreport]

end Session

/-- **Two sources in one session run as one source.** Take two sources that are read
without a complaint, the first of which does not end inside a comment, and a receiver
that never fails. If the first source ends without a fault, then the joined source gives
the same output and leaves the same variables as one source after the other, and reports
what the second one reports, further down by the lines of the first and the line feed.
If the first source ends with a fault, then the joined source does what it does alone. -/
theorem run_joined {W : Type} [Sink W] {received : W → List UInt8} {s t : String}
    (hs : (read s).report = []) (ht : (read t).report = []) (hcomment : ¬ EndsInComment s)
    (session : Session W) (hsink : Sink.Accepts received none session.sink) :
    let first := session.run s
    let second := first.2.run t
    let joined := session.run (s ++ "\n" ++ t)
    (first.1.hasFault = false →
      received joined.2.sink = received second.2.sink ∧
      joined.2.environment = second.2.environment ∧
      joined.1 = second.1.map (Diagnostic.below (1 + s.toList.count '\n'))) ∧
    (first.1.hasFault = true →
      received joined.2.sink = received first.2.sink ∧
      joined.2.environment = first.2.environment ∧ joined.1 = first.1) := by
  intro first second joined
  obtain ⟨hprogram, hreport⟩ := read_joined hs hcomment t
  rw [ht, List.map_nil] at hreport
  have hfirst : first = session.interpret (read s).program := session.run_of_read hs
  have hsecond : second = first.2.interpret (read t).program := first.2.run_of_read ht
  have hjoined : joined = session.interpret (read (s ++ "\n" ++ t)).program :=
    session.run_of_read hreport
  rw [hprogram] at hjoined
  rw [hjoined, hsecond, hfirst]
  exact session.interpret_joined hsink (read s).program (read t).program _

/-- A source that ends with a comment, and one that fails on its second line: joined, they
fail on the third. -/
theorem run_joined_behind_comment :
    let s := "var a = \"x\"; // a text"
    let t := "print a;\nprint -a;"
    let session : Session := {}
    (read s).report = [] ∧ (read t).report = [] ∧ ¬ EndsInComment s ∧
    Sink.Accepts Buffer.written none session.sink ∧ (session.run s).1.hasFault = false ∧
    ((session.run s).2.run t).1 = [.fault (some ⟨2, 7⟩) "Operand must be a number."] ∧
    (session.run (s ++ "\n" ++ t)).1 = [.fault (some ⟨3, 7⟩) "Operand must be a number."] ∧
    (session.run (s ++ "\n" ++ t)).2.sink.written =
      ((session.run s).2.run t).2.sink.written := by
  intro s t session
  have hs : (read s).report = [] := by decide +kernel
  have ht : (read t).report = [] := by decide +kernel
  have hcomment : ¬ EndsInComment s := by decide +kernel
  have hsink : Sink.Accepts Buffer.written none session.sink := Buffer.accepts {} rfl
  have hfault : (session.run s).1.hasFault = false := by decide +kernel
  have hreport : ((session.run s).2.run t).1 =
      [.fault (some ⟨2, 7⟩) "Operand must be a number."] := by decide +kernel
  obtain ⟨hwritten, -, hjoined⟩ := (run_joined hs ht hcomment session hsink).1 hfault
  have hlines : s.toList.count '\n' = 0 := by decide +kernel
  refine ⟨hs, ht, hcomment, hsink, hfault, hreport, ?_, hwritten⟩
  rw [hjoined, hreport, hlines]
  rfl

end Scriptlet
