import Scriptlet.Evaluation
import Scriptlet.Sink

/-!
Running statements in a session.

A session holds the variables and the output of the sources run so far. What a
statement has done before a fault stays done.

* `Session.print`: writes a line of output.
* `Statement.execute`: runs one statement; a block closes its scope again in
  any case.
* `Session.executeBlock`: runs statements in a scope of their own.
* `Session.interpret`: runs a program and reports the fault that ended it.
-/

namespace Scriptlet

/-- Variables, and the receiver of the output. -/
structure Session (W : Type := Buffer) where
  environment : Environment := {}
  sink : W

/-- A new session has no variables, and takes any amount of output. -/
instance : EmptyCollection Session := ⟨⟨{}, {}⟩⟩

variable {W : Type} [Sink W]

namespace Session

/-- Evaluates an expression. -/
def evaluate (session : Session W) (expr : Expr) : Except Fault Value × Session W :=
  let (outcome, environment) := expr.evaluate session.environment
  (outcome, { session with environment := environment })

/-- Writes a line of output. -/
def print (session : Session W) (line : String) : Except Fault Unit × Session W :=
  let (outcome, sink) := Sink.write session.sink (utf8 (line ++ "\n"))
  (outcome.mapError .output, { session with sink := sink })

/-- Adds a variable to the innermost scope. -/
def define (session : Session W) (name : Token) (value : Value) :
    Except Fault Unit × Session W :=
  match session.environment.define name value with
  | .ok environment => (.ok (), { session with environment := environment })
  | .error fault => (.error fault, session)

/-- Opens a scope. -/
def enter (session : Session W) : Session W :=
  { session with environment := session.environment.push }

/-- Closes the innermost scope. -/
def leave (session : Session W) : Session W :=
  { session with environment := session.environment.pop }

/-- Passes on the output at the end of a run. -/
def flush (session : Session W) : Except Fault Unit × Session W :=
  let (outcome, sink) := Sink.flush session.sink
  (outcome.mapError .output, { session with sink := sink })

end Session

mutual

/-- Runs a statement. -/
def Statement.execute : Statement → Session W → Except Fault Unit × Session W
  | .expression expr, session =>
    match session.evaluate expr with
    | (.error fault, session) => (.error fault, session)
    | (.ok _, session) => (.ok (), session)
  | .print expr, session =>
    match session.evaluate expr with
    | (.error fault, session) => (.error fault, session)
    | (.ok value, session) => session.print value.text
  | .declare name none, session => session.define name .nil
  | .declare name (some initial), session =>
    match session.evaluate initial with
    | (.error fault, session) => (.error fault, session)
    | (.ok value, session) => session.define name value
  | .block body, session =>
    let (outcome, session) := Statement.executeAll body session.enter
    (outcome, session.leave)

/-- Runs statements in order up to the first fault. -/
def Statement.executeAll : List Statement → Session W → Except Fault Unit × Session W
  | [], session => (.ok (), session)
  | statement :: rest, session =>
    match statement.execute session with
    | (.error fault, session) => (.error fault, session)
    | (.ok _, session) => Statement.executeAll rest session

end

namespace Session

/-- Runs one statement. -/
def execute (session : Session W) (statement : Statement) : Except Fault Unit × Session W :=
  statement.execute session

/-- Runs statements in a scope of their own. -/
def executeBlock (session : Session W) (body : List Statement) : Except Fault Unit × Session W :=
  session.execute (.block body)

/-- Runs a program. Its first fault ends the run; output is flushed in any
case, and a failure to do so is reported if the program itself had no fault. -/
def interpret (session : Session W) (program : List Statement) : Report × Session W :=
  let (outcome, session) := Statement.executeAll program session
  let (flushed, session) := session.flush
  match outcome, flushed with
  | .error fault, _ => ([fault.diagnostic], session)
  | .ok _, .error fault => ([fault.diagnostic], session)
  | .ok _, .ok _ => ([], session)

end Session

end Scriptlet
