import Scriptlet.Token.Basic

/-!
What is told to the user about a source and its run.

* `Diagnostic`: a complaint about malformed source text, or the fault that ended
  a run; `Diagnostic.text` is the form in which it is shown.
* `Report`: diagnostics in the order in which they arose.
* `FlaggedReport`: a report that is being written, with flags that tell whether the
  source was rejected and whether its run ended in a fault.
-/

namespace Scriptlet

/-- What a complaint about source text points at. -/
inductive Location where
  | unknown
  | endOfInput
  | lexeme (text : String)
deriving DecidableEq, Repr

/-- The words that follow `Error` for a location. -/
def Location.text : Location → String
  | unknown => ""
  | endOfInput => " at end"
  | lexeme text => " at '" ++ text ++ "'"

/-- One message to the user. -/
inductive Diagnostic where
  /-- Source text that is no program. The end of the input has no column. -/
  | malformed (line : Nat) (column : Option Nat) (location : Location) (message : String)
  /-- The end of a run by a fault, at the token that caused it if there is one. -/
  | fault (position : Option Position) (message : String)
deriving DecidableEq, Repr

namespace Diagnostic

/-- A complaint about the source text at a position. -/
def atPosition (p : Position) (message : String) : Diagnostic :=
  .malformed p.line (some p.column) .unknown message

/-- A complaint about a token. -/
def atToken (t : Token) (message : String) : Diagnostic :=
  if t.isEnd then .malformed t.position.line none .endOfInput message
  else .malformed t.position.line (some t.position.column) (.lexeme t.lexeme) message

/-- The message without its position. -/
def message : Diagnostic → String
  | malformed _ _ _ message => message
  | fault _ message => message

/-- The diagnostic tells of a fault at run time. -/
def isFault : Diagnostic → Bool
  | malformed .. => false
  | fault .. => true

/-- The form in which a diagnostic is shown. -/
def text : Diagnostic → String
  | malformed line column location message =>
    let place :=
      match column with
      | some column => (Position.mk line column).text
      | none => toString line
    "[line " ++ place ++ "] Error" ++ location.text ++ ": " ++ message
  | fault (some position) message => message ++ "\n[line " ++ position.text ++ "]"
  | fault none message => message

end Diagnostic

/-- Diagnostics in the order in which they arose. -/
abbrev Report := List Diagnostic

namespace Report

/-- There is a complaint about the source. -/
def isRejection (r : Report) : Bool := r.any (!·.isFault)

/-- There is a fault of a run. -/
def hasFault (r : Report) : Bool := r.any (·.isFault)

end Report

/-- A report that is being written. A flag is raised by every diagnostic of its
sort and never lowered, so the flags tell what the report holds. -/
structure FlaggedReport where
  report : Report
  rejected : Bool
  faulted : Bool
  rejected_eq : rejected = report.isRejection
  faulted_eq : faulted = report.hasFault

namespace FlaggedReport

/-- Nothing has been reported. -/
def empty : FlaggedReport := ⟨[], false, false, rfl, rfl⟩

/-- Adds a diagnostic and raises the flag of its sort. -/
def add (flagged : FlaggedReport) (d : Diagnostic) : FlaggedReport where
  report := flagged.report ++ [d]
  rejected := flagged.rejected || !d.isFault
  faulted := flagged.faulted || d.isFault
  rejected_eq := by simp [flagged.rejected_eq, Report.isRejection]
  faulted_eq := by simp [flagged.faulted_eq, Report.hasFault]

/-- Adds diagnostics one after another. -/
def addAll (flagged : FlaggedReport) (report : Report) : FlaggedReport :=
  report.foldl add flagged

/-- A report with the flags that its diagnostics raise. -/
def ofReport (report : Report) : FlaggedReport := empty.addAll report

@[simp]
theorem report_addAll (flagged : FlaggedReport) (report : Report) :
    (flagged.addAll report).report = flagged.report ++ report := by
  induction report generalizing flagged with
  | nil => exact (List.append_nil _).symm
  | cons d report ih =>
    rw [addAll, List.foldl_cons, ← addAll, ih, add, List.append_assoc, List.singleton_append]

@[simp]
theorem report_ofReport (report : Report) : (ofReport report).report = report :=
  report_addAll empty report

@[simp]
theorem rejected_ofReport (report : Report) : (ofReport report).rejected = report.isRejection := by
  rw [rejected_eq, report_ofReport]

@[simp]
theorem faulted_ofReport (report : Report) : (ofReport report).faulted = report.hasFault := by
  rw [faulted_eq, report_ofReport]

end FlaggedReport

end Scriptlet
