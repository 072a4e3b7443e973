import Scriptlet.Program.Printer
import Scriptlet.Session.Run

/-!
The command line: a script file, or lines of standard input one after another.

* `CommandLine.Mode`: sources are run, or shown as trees.
* `CommandLine.handle`: handles one source and prints the report about it.
* `CommandLine.runFile`: handles a script.
* `CommandLine.runLines`: handles lines in one session.
-/

namespace Scriptlet.CommandLine

/-- What is done with a source. -/
inductive Mode where
  | run
  | tree
deriving DecidableEq, Repr

/-- What the program leaves behind. -/
structure Outcome where
  status : UInt32
  stdout : List UInt8
  stderr : String

/-- Why a script cannot be read. -/
inductive ReadFailure where
  | missing
  | notText
  | other (cause : String)
deriving DecidableEq, Repr

/-- The wording of a failure to read. -/
def ReadFailure.message : ReadFailure → String
  | missing => "No such file or directory (os error 2)"
  | notText => "stream did not contain valid UTF-8"
  | other cause => cause

/-- The text that bytes encode. -/
def decode (bytes : List UInt8) : Except ReadFailure String :=
  match String.fromUTF8? ⟨bytes.toArray⟩ with
  | some text => .ok text
  | none => .error .notText

/-- Prints lines, one after another. -/
def printAll (session : Session) (lines : List String) : Session :=
  lines.foldl (fun session line => (session.print line).2) session

/-- Shows the trees of a source instead of running it. -/
def showTree (session : Session) (source : String) : FlaggedReport × Session :=
  let reading := read source
  (.ofReport reading.report, printAll session (reading.program.map (·.render)))

/-- Handles one source. The report about it is printed behind its output. -/
def handle (mode : Mode) (session : Session) (source : String) : FlaggedReport × Session :=
  let (flagged, session) :=
    match mode with
    | .run => session.runFlagged source
    | .tree => showTree session source
  (flagged, printAll session (flagged.report.map (·.text)))

/-- The exit status by the flags of a report: malformed input, a fault, or neither. -/
def status (flagged : FlaggedReport) : UInt32 :=
  if flagged.rejected then 65 else if flagged.faulted then 70 else 0

/-- Handles a script whose content was read from `path`. -/
def runFile (mode : Mode) (path : String) (content : Except ReadFailure (List UInt8)) :
    Outcome :=
  match content.bind decode with
  | .ok source =>
    let (flagged, session) := handle mode {} source
    ⟨status flagged, session.sink.written, ""⟩
  | .error failure =>
    ⟨66, [], "Failed to read the input file '" ++ path ++ "': " ++ failure.message ++ "\n"⟩

/-- The lines of an input without their line feeds. A last line need not end
with one. -/
def lines : List UInt8 → List (List UInt8)
  | [] => []
  | byte :: bytes =>
    if byte = 10 then [] :: lines bytes
    else
      match lines bytes with
      | [] => [[byte]]
      | line :: more => (byte :: line) :: more

/-- Handles one line. -/
def handleLine (mode : Mode) (session : Session) (line : List UInt8) :
    Except ReadFailure Session :=
  (decode line).map fun source => (handle mode session source).2

/-- Handles lines one after another in one session. A line that is no text ends
the input. -/
def runLines (mode : Mode) (session : Session) : List (List UInt8) → Outcome
  | [] => ⟨0, session.sink.written, ""⟩
  | line :: more =>
    match handleLine mode session line with
    | .ok session => runLines mode session more
    | .error failure => ⟨1, session.sink.written, failure.message ++ "\n"⟩

end Scriptlet.CommandLine
