import Scriptlet.Reading
import Scriptlet.Session.Basic

/-!
Running source text in a session.

* `Session.runFlagged`: reads and runs a source. A source that is no program does
  not touch the session.
* `Session.run`: the same, without the flags of the report.
-/

namespace Scriptlet.Session

variable {W : Type} [Sink W]

/-- Reads a source and, unless it is rejected, runs it. What is reported about the
program comes behind what is reported about the source. -/
def runFlagged (session : Session W) (source : String) : FlaggedReport × Session W :=
  let reading := read source
  let flagged := FlaggedReport.ofReport reading.report
  if flagged.rejected then (flagged, session)
  else
    let (report, session) := session.interpret reading.program
    (flagged.addAll report, session)

/-- Reads and runs a source, and gives the report without its flags. -/
def run (session : Session W) (source : String) : Report × Session W :=
  ((session.runFlagged source).1.report, (session.runFlagged source).2)

end Scriptlet.Session
