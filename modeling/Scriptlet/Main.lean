import Scriptlet.CommandLine

/-!
The program itself: runs the script that is named on the command line, or else
the lines of standard input as they come. With `--ast` programs are shown
instead of run.
-/

namespace Scriptlet.CommandLine

/-- The content of a file. -/
def readScript (path : String) : IO (Except ReadFailure (List UInt8)) := do
  try
    return .ok (← IO.FS.readBinFile path).toList
  catch
    | .noFileOrDirectory .. => return .error .missing
    | failure => return .error (.other (toString failure))

/-- What comes before the next line feed of a stream, behind what has come
already, and the line feed. Nothing comes at the end of the stream. -/
partial def readLine (stream : IO.FS.Stream) (line : Array UInt8) : IO (List UInt8) := do
  match (← stream.read 1).toList with
  | [] => return line.toList
  | byte :: _ =>
    if byte = 10 then return (line.push byte).toList else readLine stream (line.push byte)

/-- Writes bytes to a stream. -/
def emit (stream : IO.FS.Stream) (bytes : List UInt8) : IO Unit := do
  stream.write ⟨bytes.toArray⟩
  stream.flush

/-- Writes what a run left behind. -/
def finish (outcome : Outcome) : IO UInt32 := do
  emit (← IO.getStdout) outcome.stdout
  emit (← IO.getStderr) (utf8 outcome.stderr)
  return outcome.status

/-- Handles lines of a stream as they come, and writes the output of each
before the next is read. -/
partial def prompt (mode : Mode) (session : Session) (stream : IO.FS.Stream) : IO UInt32 := do
  match lines (← readLine stream #[]) with
  | [] => return 0
  | line :: _ =>
    match handleLine mode session line with
    | .error failure => finish ⟨1, [], failure.message ++ "\n"⟩
    | .ok session =>
      emit (← IO.getStdout) session.sink.written
      prompt mode { session with sink := {} } stream

end Scriptlet.CommandLine

open Scriptlet.CommandLine in
/-- Runs the program with the given arguments. -/
def main (arguments : List String) : IO UInt32 := do
  let mode := if arguments.contains "--ast" then Mode.tree else Mode.run
  match arguments.filter (· != "--ast") with
  | [] => prompt mode {} (← IO.getStdin)
  | path :: _ => finish (runFile mode path (← readScript path))
