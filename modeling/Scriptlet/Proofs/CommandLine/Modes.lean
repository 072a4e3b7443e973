import Scriptlet.Proofs.Session.Output
import Scriptlet.Proofs.Session.Verdict

/-!
Scripts that are run and scripts that are shown.

Both modes read a script in the same way, and differ in what they do with the program. A
script with mistakes is not run, so nothing stands before the report about it, while the
statements that were read all the same are shown before the same report.

* `printed`: the bytes of lines.
* `written_printAll`: a session that prints lines.
* `runFile_tree`, `runFile_run_of_mistakes`, `runFile_run_of_read`: what a script leaves
  behind in either mode.
* `modes_agree`: one script in both modes.
-/

namespace Scriptlet.CommandLine

/-! ### Printing -/

/-- The bytes of lines, each with its line feed. -/
def printed (lines : List String) : List UInt8 := lines.flatMap fun line => utf8 (line ++ "\n")

lemma sink_printAll (session : Session) (lines : List String) :
    (printAll session lines).sink =
      Sink.after session.sink (lines.map fun line => .write (utf8 (line ++ "\n"))) := by
  induction lines generalizing session with
  | nil => rfl
  | cons line lines ih => exact ih (session.print line).2

/-- A session whose receiver never becomes full prints all lines behind what it has. -/
lemma written_printAll {session : Session}
    (h : Sink.Accepts Buffer.written none session.sink) (lines : List String) :
    (printAll session lines).sink.written = session.sink.written ++ printed lines := by
  rw [sink_printAll, h.received_after, List.flatMap_map]
  rfl

/-! ### Status -/

/-- A report about a source that was only read gives one of two statuses. -/
lemma status_read (source : String) :
    status (.ofReport (read source).report) = if (read source).report = [] then 0 else 65 := by
  split
  case isTrue h =>
      rw [h]
      rfl
  case isFalse h =>
      rw [status, FlaggedReport.rejected_ofReport, if_pos (isRejection_of_mistakes h)]

/-- A program that is run is no longer rejected. -/
lemma status_interpret_ne (session : Session) (program : List Statement) :
    status (.ofReport (session.interpret program).1) ≠ 65 := by
  obtain hreport | ⟨fault, hreport⟩ := session.interpret_report program
  · rw [hreport]
    decide
  · have hfault : status (.ofReport [fault.diagnostic]) = 70 := rfl
    rw [hreport, hfault]
    decide

/-! ### Scripts -/

section

variable (path : String) {content : Except ReadFailure (List UInt8)} {source : String}

lemma empty_accepts : Sink.Accepts Buffer.written none ({} : Session).sink :=
  Buffer.accepts {} rfl

/-- A script that is shown: its statements, and the report about it. -/
lemma runFile_tree (h : content.bind decode = .ok source) :
    runFile .tree path content =
      ⟨status (.ofReport (read source).report),
        printed ((read source).program.map (·.render)) ++
          printed ((read source).report.map (·.text)), ""⟩ := by
  have hboth (lines more : List String) :
      (printAll (printAll {} lines) more).sink.written = printed lines ++ printed more := by
    rw [printAll, printAll, ← List.foldl_append, ← printAll, written_printAll empty_accepts]
    exact List.flatMap_append
  rw [runFile, h]
  dsimp only [handle, showTree]
  rw [hboth, FlaggedReport.report_ofReport]

/-- A script with mistakes that is run: nothing but the report about it. -/
lemma runFile_run_of_mistakes (h : content.bind decode = .ok source)
    (hmistakes : (read source).report ≠ []) :
    runFile .run path content =
      ⟨status (.ofReport (read source).report),
        printed ((read source).report.map (·.text)), ""⟩ := by
  rw [runFile, h]
  dsimp only [handle]
  rw [Session.runFlagged_of_mistakes _ hmistakes, written_printAll empty_accepts,
    FlaggedReport.report_ofReport]
  rfl

/-- A script without mistakes that is run: its output, and the fault that ends it. -/
lemma runFile_run_of_read (h : content.bind decode = .ok source)
    (hread : (read source).report = []) :
    let after := ({} : Session).interpret (read source).program
    runFile .run path content =
      ⟨status (.ofReport after.1), after.2.sink.written ++ printed (after.1.map (·.text)), ""⟩ := by
  obtain ⟨-, -, -, haccepts⟩ :=
    Session.interpret_of_endless {} empty_accepts (read source).program
  rw [runFile, h]
  dsimp only [handle]
  rw [Session.runFlagged_of_read _ hread, written_printAll haccepts, FlaggedReport.report_ofReport]

/-- **Both modes agree on what a program is.** Take a script that can be read as text. It is
rejected when it is shown exactly if it is rejected when it is run, which is if it has
mistakes, and showing it does not fail in another way. If it is rejected, then running it
prints the report about it and nothing else, and showing it prints the statements that were
read all the same, and then the very same. If it is not, then showing it prints the
statements of the program that is executed when it is run, and nothing else. -/
theorem modes_agree (h : content.bind decode = .ok source) :
    let run := runFile .run path content
    let tree := runFile .tree path content
    let trees := printed ((read source).program.map (·.render))
    let session : Session := {}
    (tree.status = 65 ↔ run.status = 65) ∧
    (run.status = 65 ↔ (read source).report ≠ []) ∧
    (tree.status ≠ 65 → tree.status = 0) ∧
    (run.status = 65 →
      run.stdout = printed ((read source).report.map (·.text)) ∧
      tree.stdout = trees ++ run.stdout) ∧
    (run.status ≠ 65 →
      tree.stdout = trees ∧
      session.run source = session.interpret (read source).program ∧
      run.status = status (.ofReport (session.interpret (read source).program).1) ∧
      run.stdout = (session.interpret (read source).program).2.sink.written ++
        printed ((session.interpret (read source).program).1.map (·.text))) := by
  intro run tree trees session
  have htree : tree = _ := runFile_tree path h
  by_cases hread : (read source).report = []
  · have hrun : run = _ := runFile_run_of_read path h hread
    have hshown : tree.status = 0 := by rw [htree, status_read, if_pos hread]
    have hended : run.status ≠ 65 := by
      rw [hrun]
      exact status_interpret_ne session (read source).program
    refine ⟨?_, iff_of_false hended (not_not.2 hread), fun _ => hshown,
      fun hrejected => absurd hrejected hended, fun _ => ⟨?_, session.run_of_read hread, ?_, ?_⟩⟩
    · rw [hshown]
      exact iff_of_false (by decide) hended
    · rw [htree, hread]
      exact List.append_nil _
    · rw [hrun]
    · rw [hrun]
  · have hrun : run = _ := runFile_run_of_mistakes path h hread
    have hshown : tree.status = 65 := by rw [htree, status_read, if_neg hread]
    have hended : run.status = 65 := by rw [hrun, status_read, if_neg hread]
    refine ⟨iff_of_true hshown hended, iff_of_true hended hread,
      fun hother => absurd hshown hother, fun _ => ⟨?_, ?_⟩, fun hother => absurd hended hother⟩
    · rw [hrun]
    · rw [htree, hrun]

end

/-- A character that is no token, and a parenthesis that is not closed, between statements
that are read all the same. -/
theorem modes_agree_on_mistakes :
    let text := "print a; b = @c; print (a; print nil;"
    let content := .ok (utf8 text)
    content.bind decode = .ok text ∧
    (runFile .run "script" content).status = 65 ∧ (runFile .tree "script" content).status = 65 ∧
    (runFile .run "script" content).stdout =
      printed ["[line 1:14] Error: Unexpected character: @",
        "[line 1:26] Error at ';': Expect ')' after expression."] ∧
    (runFile .tree "script" content).stdout =
      printed ["(print (a))", "(; (= b (c)))", "(print nil)",
        "[line 1:14] Error: Unexpected character: @",
        "[line 1:26] Error at ';': Expect ')' after expression."] := by
  intro text content
  have hcontent : content.bind decode = .ok text := by decide +kernel
  have hstatus : (runFile .run "script" content).status = 65 := by decide +kernel
  have hreport : (read text).report.map (·.text) =
      ["[line 1:14] Error: Unexpected character: @",
        "[line 1:26] Error at ';': Expect ')' after expression."] := by decide +kernel
  have hprogram : (read text).program.map (·.render) =
      ["(print (a))", "(; (= b (c)))", "(print nil)"] := by decide +kernel
  obtain ⟨hsame, -, -, hrejected, -⟩ := modes_agree "script" hcontent
  obtain ⟨hrun, htree⟩ := hrejected hstatus
  rw [hreport] at hrun
  rw [hprogram, hrun] at htree
  exact ⟨hcontent, hstatus, hsame.2 hstatus, hrun, htree⟩

end Scriptlet.CommandLine
