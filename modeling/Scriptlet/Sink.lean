/-!
Where the output of a run goes.

* `Sink`: receivers of output, which may fail at any time.
* `Buffer`: a receiver that keeps the bytes and may have a limit.
* `Buffer.write`: writes bytes; what still fits is kept if the buffer becomes full.
* `Buffer.flush`: asks the buffer to pass on what it holds.
-/

namespace Scriptlet

/-- The bytes of a text. -/
def utf8 (text : String) : List UInt8 := text.toList.flatMap String.utf8EncodeChar

/-- A receiver of output. A failure tells its cause, and the receiver may have
changed all the same. -/
class Sink (W : Type) where
  /-- Takes bytes. -/
  write : W → List UInt8 → Except String Unit × W
  /-- Passes on what it holds. -/
  flush : W → Except String Unit × W

/-- Why a buffer fails. -/
inductive Buffer.Failure where
  | full
  | notFlushed
deriving DecidableEq, Repr

/-- The wording of a failure. -/
def Buffer.Failure.message : Buffer.Failure → String
  | full => "sink full"
  | notFlushed => "flush failed"

/-- A receiver of output that keeps the bytes. -/
structure Buffer where
  /-- How many bytes still fit; a buffer without a limit never becomes full. -/
  room : Option Nat := none
  /-- Flushing succeeds. -/
  flushes : Bool := true
  /-- The bytes received. -/
  written : List UInt8 := []

namespace Buffer

/-- Writes bytes. A limited buffer takes those that fit, and fails if some do not. -/
def write (buffer : Buffer) (bytes : List UInt8) : Except Failure Unit × Buffer :=
  match buffer.room with
  | none => (.ok (), { buffer with written := buffer.written ++ bytes })
  | some room =>
    (if bytes.length ≤ room then .ok () else .error .full,
      { buffer with
        room := some (room - bytes.length)
        written := buffer.written ++ bytes.take room })

/-- Passes on what the buffer holds. -/
def flush (buffer : Buffer) : Except Failure Unit :=
  if buffer.flushes then .ok () else .error .notFlushed

instance : Sink Buffer where
  write buffer bytes := ((buffer.write bytes).1.mapError (·.message), (buffer.write bytes).2)
  flush buffer := (buffer.flush.mapError (·.message), buffer)

end Buffer

end Scriptlet
