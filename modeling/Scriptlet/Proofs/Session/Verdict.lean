import Scriptlet.CommandLine
import Scriptlet.Proofs.Session.Blame

/-!
How the run of a source ends.

Reading reports mistakes and no faults, and a program ends with one fault at
most, so a run has one of three verdicts, which the flags of its report tell. A
source that is rejected leaves the session as it was, so a session goes on as if
the source had never come.

* `Verdict`, `Verdict.Holds`: the three ways in which a run ends.
* `Session.interpret_report`: a program is reported to have one fault or none.
* `Session.exists_verdict`, `Verdict.eq_of_holds`: a run has one verdict.
* `Session.runAll`, `accepted`: sources one after another, and those of them that
  were not rejected.
* `run_has_one_verdict`: the verdicts of runs, of whole sessions and of scripts.
-/

namespace Scriptlet

variable {W : Type}

/-! ### Verdicts -/

/-- The ways in which the run of a source ends. -/
inductive Verdict where
  | rejected
  | faulted
  | completed
deriving DecidableEq, Repr

namespace Verdict

/-- The report of a run, its flags, and the session before and after it are as the
verdict says. -/
def Holds (before : Session W) (flagged : FlaggedReport) (after : Session W) : Verdict → Prop
  -- mistakes and nothing else are reported, and the run has left no trace
  | rejected => flagged.report ≠ [] ∧ (∀ d ∈ flagged.report, d.isFault = false) ∧
      flagged.rejected = true ∧ flagged.faulted = false ∧ after = before
  | faulted => (∃ fault : Fault, flagged.report = [fault.diagnostic]) ∧
      flagged.rejected = false ∧ flagged.faulted = true
  | completed => flagged.report = [] ∧ flagged.rejected = false ∧ flagged.faulted = false

/-- The exit status of a script. -/
def status : Verdict → UInt32
  | rejected => 65
  | faulted => 70
  | completed => 0

/-- The status is read off the flags. -/
lemma Holds.status_eq {verdict : Verdict} {before after : Session W} {flagged : FlaggedReport}
    (h : verdict.Holds before flagged after) : CommandLine.status flagged = verdict.status := by
  cases verdict with
  | rejected =>
      obtain ⟨-, -, hrejection, -, -⟩ := h
      rw [CommandLine.status, if_pos hrejection]
      rfl
  | faulted =>
      obtain ⟨-, hrejection, hfault⟩ := h
      rw [CommandLine.status, hrejection, hfault]
      rfl
  | completed =>
      obtain ⟨-, hrejection, hfault⟩ := h
      rw [CommandLine.status, hrejection, hfault]
      rfl

lemma status_injective {verdict other : Verdict} (h : verdict.status = other.status) :
    verdict = other := by
  cases verdict <;> cases other <;> first | rfl | exact absurd h (by decide)

/-- No run has two verdicts. -/
lemma eq_of_holds {verdict other : Verdict} {before after : Session W} {flagged : FlaggedReport}
    (h : verdict.Holds before flagged after) (h' : other.Holds before flagged after) :
    verdict = other :=
  status_injective (h.status_eq.symm.trans h'.status_eq)

end Verdict

/-! ### Runs -/

variable [Sink W]

/-- All that is reported about a source before it is run are mistakes. -/
lemma isRejection_of_mistakes {source : String} (h : (read source).report ≠ []) :
    (read source).report.isRejection = true := by
  by_contra haccepted
  exact h (read_report_eq_nil haccepted)

namespace Session

/-- A source without mistakes is run. -/
lemma runFlagged_of_read (session : Session W) {source : String} (h : (read source).report = []) :
    session.runFlagged source =
      (.ofReport (session.interpret (read source).program).1,
        (session.interpret (read source).program).2) := by
  rw [runFlagged, h]
  rfl

/-- A source with mistakes is not, and leaves the session as it was. -/
lemma runFlagged_of_mistakes (session : Session W) {source : String}
    (h : (read source).report ≠ []) :
    session.runFlagged source = (.ofReport (read source).report, session) := by
  have hrejected : (FlaggedReport.ofReport (read source).report).rejected = true := by
    rw [FlaggedReport.rejected_ofReport, isRejection_of_mistakes h]
  rw [runFlagged, if_pos hrejected]

lemma run_of_read (session : Session W) {source : String} (h : (read source).report = []) :
    session.run source = session.interpret (read source).program := by
  rw [run, session.runFlagged_of_read h, FlaggedReport.report_ofReport]

lemma run_of_mistakes (session : Session W) {source : String} (h : (read source).report ≠ []) :
    session.run source = ((read source).report, session) := by
  rw [run, session.runFlagged_of_mistakes h, FlaggedReport.report_ofReport]

/-- A program is reported to have one fault or none, whether it is the program that
fails or the output. -/
lemma interpret_report (session : Session W) (program : List Statement) :
    (session.interpret program).1 = [] ∨
      ∃ fault : Fault, (session.interpret program).1 = [fault.diagnostic] := by
  rw [interpret]
  dsimp only
  split
  · exact .inr ⟨_, rfl⟩
  · exact .inr ⟨_, rfl⟩
  · exact .inl rfl

/-- Every run has a verdict. -/
lemma exists_verdict (session : Session W) (source : String) :
    ∃ verdict : Verdict,
      verdict.Holds session (session.runFlagged source).1 (session.runFlagged source).2 := by
  by_cases hread : (read source).report = []
  · rw [session.runFlagged_of_read hread]
    obtain hreport | ⟨fault, hreport⟩ := session.interpret_report (read source).program
    · rw [hreport]
      exact ⟨.completed, rfl, rfl, rfl⟩
    · rw [hreport]
      exact ⟨.faulted, ⟨fault, rfl⟩, rfl, rfl⟩
  · have hmistakes : ∀ d ∈ (read source).report, d.isFault = false :=
      fun d hd => not_isFault_of_mem_read hd
    have hfault : (read source).report.hasFault = false := by
      simpa [Report.hasFault] using hmistakes
    rw [session.runFlagged_of_mistakes hread]
    refine ⟨.rejected, ?_, ?_, ?_, ?_, rfl⟩
    · rwa [FlaggedReport.report_ofReport]
    · rwa [FlaggedReport.report_ofReport]
    · rw [FlaggedReport.rejected_ofReport, isRejection_of_mistakes hread]
    · rw [FlaggedReport.faulted_ofReport, hfault]

/-- A source that is rejected leaves the session as it was. -/
lemma runFlagged_of_rejected {session : Session W} {source : String}
    (h : (session.runFlagged source).1.rejected = true) :
    (session.runFlagged source).2 = session := by
  obtain ⟨verdict, hverdict⟩ := session.exists_verdict source
  cases verdict with
  | rejected =>
      obtain ⟨-, -, -, -, hsession⟩ := hverdict
      exact hsession
  | faulted => cases hverdict.2.1.symm.trans h
  | completed => cases hverdict.2.1.symm.trans h

/-! ### Sessions -/

/-- Runs sources one after another, and gives the report of each. -/
def runAll (session : Session W) : List String → List FlaggedReport × Session W
  | [] => ([], session)
  | source :: sources =>
    let (flagged, next) := session.runFlagged source
    let (reports, final) := next.runAll sources
    (flagged :: reports, final)

end Session

/-- The sources that were not rejected, by the flags of their reports. -/
def accepted (sources : List String) (reports : List FlaggedReport) : List String :=
  ((sources.zip reports).filter (!·.2.rejected)).map (·.1)

/-- A session is the same without the sources that it rejects. -/
lemma Session.runAll_accepted (session : Session W) (sources : List String) :
    session.runAll (accepted sources (session.runAll sources).1) =
      ((session.runAll sources).1.filter (!·.rejected), (session.runAll sources).2) := by
  induction sources generalizing session with
  | nil => rfl
  | cons source sources ih =>
      have hlater := ih (session.runFlagged source).2
      cases hrejected : (session.runFlagged source).1.rejected with
      | true =>
          rw [runFlagged_of_rejected hrejected] at hlater
          simpa [runAll, accepted, hrejected, runFlagged_of_rejected hrejected] using hlater
      | false =>
          rw [accepted] at hlater
          simp [runAll, accepted, hrejected, hlater]

/-- **A run ends in exactly one of three ways.** Its source is rejected, for mistakes
that are all reported, and nothing is touched; or there is one fault, and the report
is that fault; or nothing is reported. The flags of the report tell which of these it
was, and so does the exit status of a script. A session ends in the same variables and
the same output, with the same reports, when the sources that it rejects are left
out. -/
theorem run_has_one_verdict :
    (∀ (session : Session W) (source : String), ∃! verdict : Verdict,
      verdict.Holds session (session.runFlagged source).1 (session.runFlagged source).2) ∧
    (∀ (session : Session W) (sources : List String),
      session.runAll (accepted sources (session.runAll sources).1) =
        ((session.runAll sources).1.filter (!·.rejected), (session.runAll sources).2)) ∧
    ∀ path content source, content.bind CommandLine.decode = .ok source →
      ∀ verdict : Verdict, (CommandLine.runFile .run path content).status = verdict.status ↔
        let session : Session := {}
        verdict.Holds session (session.runFlagged source).1 (session.runFlagged source).2 := by
  refine ⟨?_, Session.runAll_accepted, ?_⟩
  · intro session source
    obtain ⟨verdict, hverdict⟩ := session.exists_verdict source
    exact ⟨verdict, hverdict, fun other hother => Verdict.eq_of_holds hother hverdict⟩
  · intro path content source hcontent verdict
    obtain ⟨actual, hactual⟩ := Session.exists_verdict ({} : Session) source
    have hstatus : (CommandLine.runFile .run path content).status = actual.status := by
      rw [CommandLine.runFile, hcontent]
      exact hactual.status_eq
    rw [hstatus]
    constructor
    · intro h
      rwa [← Verdict.status_injective h]
    · intro h
      rw [Verdict.eq_of_holds h hactual]

/-- The first line is printed, and then the minus has no number: status 70. -/
theorem run_has_one_verdict_at_minus :
    let content := .ok (utf8 "print 1; print -true;")
    let session : Session := {}
    content.bind CommandLine.decode = .ok "print 1; print -true;" ∧
    (CommandLine.runFile .run "script" content).status = 70 ∧
    Verdict.faulted.Holds session (session.runFlagged "print 1; print -true;").1
      (session.runFlagged "print 1; print -true;").2 := by
  intro content session
  have hcontent : content.bind CommandLine.decode = .ok "print 1; print -true;" := by
    decide +kernel
  have hstatus : (CommandLine.runFile .run "script" content).status = 70 := by decide +kernel
  exact ⟨hcontent, hstatus,
    ((run_has_one_verdict (W := Buffer)).2.2 _ _ _ hcontent .faulted).1 hstatus⟩

end Scriptlet
