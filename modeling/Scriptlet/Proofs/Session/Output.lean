import Scriptlet.Proofs.Session.Scoping
import Scriptlet.Proofs.Session.Steps
import Scriptlet.Session.Run

/-!
What a run writes, whatever receives it.

A program prints lines, and what it prints does not depend on who receives the
lines. A receiver can only end the run early, by failing. So a run is told by the
record of its lines, and the same program with another receiver replays that record
up to the first line that is not taken.

* `Log`: the receiver that takes every line and keeps them apart.
* `Sink.feed`: lines written one after another, up to the first failure.
* `Statement.replays`: a run with any receiver replays the record.
* `Sink.Accepts`: receivers with room for a number of bytes, or for any number.
* `Session.interpret_of_fits`, `Session.interpret_of_not_fits`: what a program leaves in
  such a receiver.
* `output_cut`: a receiver that becomes full cuts the output and alters nothing.
-/

namespace Scriptlet

variable {W : Type} [Sink W]

/-! ### Lines one after another -/

/-- Writes lines in order, up to the first failure. -/
def Sink.feed (sink : W) : List (List UInt8) → Except String Unit × W
  | [] => (.ok (), sink)
  | line :: lines =>
    match write sink line with
    | (.error cause, after) => (.error cause, after)
    | (.ok _, after) => feed after lines

lemma Sink.feed_append_of_ok {sink after : W} {lines : List (List UInt8)}
    (h : feed sink lines = (.ok (), after)) (more : List (List UInt8)) :
    feed sink (lines ++ more) = feed after more := by
  induction lines generalizing sink with
  | nil =>
      cases h
      rfl
  | cons line lines ih =>
      rw [feed] at h
      rw [List.cons_append, feed]
      split at h
      · cases h
      · exact ih h

lemma Sink.feed_append_of_error {sink after : W} {lines : List (List UInt8)} {cause : String}
    (h : feed sink lines = (.error cause, after)) (more : List (List UInt8)) :
    feed sink (lines ++ more) = (.error cause, after) := by
  induction lines generalizing sink with
  | nil => cases h
  | cons line lines ih =>
      rw [feed] at h
      rw [List.cons_append, feed]
      split at h
      · exact h
      · exact ih h

/-- A receiver that never fails takes all lines. -/
lemma Sink.Reliable.feed {sink : W} (h : Reliable sink) (lines : List (List UInt8)) :
    Sink.feed sink lines = (.ok (), writeAll sink lines) := by
  induction lines generalizing sink with
  | nil => rfl
  | cons line lines ih =>
      have hline := h [] line
      have hafter : Reliable (write sink line).2 := fun texts bytes => h (line :: texts) bytes
      have hlines := ih hafter
      rcases hwrite : write sink line with ⟨cause | done, after⟩
      · rw [writeAll, List.foldl_nil, hwrite] at hline
        cases hline
      · rw [hwrite] at hlines
        simp only [Sink.feed, hwrite, hlines, writeAll, List.foldl_cons]

/-! ### The record of a run -/

/-- A receiver that takes every line and keeps them apart. -/
structure Log where
  lines : List (List UInt8) := []

instance : Sink Log where
  write log line := (.ok (), ⟨log.lines ++ [line]⟩)
  flush log := (.ok (), log)

lemma Log.reliable (log : Log) : Sink.Reliable log := fun _ _ => rfl

lemma Log.lines_writeAll (log : Log) (lines : List (List UInt8)) :
    (Sink.writeAll log lines).lines = log.lines ++ lines := by
  induction lines generalizing log with
  | nil => exact (List.append_nil _).symm
  | cons line lines ih =>
      refine (ih ⟨log.lines ++ [line]⟩).trans ?_
      rw [List.append_assoc, List.singleton_append]

/-- A run from the same variables with another receiver: it takes all lines that are
new in the record, and the run ends as recorded, or it fails at one of them. -/
def Replays (sink : W) (log : Log) (recorded : Except Fault Unit × Session Log)
    (actual : Except Fault Unit × Session W) : Prop :=
  ∃ lines, recorded.2.sink.lines = log.lines ++ lines ∧
    ((∃ after, Sink.feed sink lines = (.ok (), after) ∧
        actual = (recorded.1, ⟨recorded.2.environment, after⟩)) ∨
      ∃ cause env after, Sink.feed sink lines = (.error cause, after) ∧
        actual = (.error (.output cause), ⟨env, after⟩))

namespace Replays

variable {sink : W} {log : Log}

/-- Nothing was printed. -/
lemma silent (outcome : Except Fault Unit) (env : Environment) :
    Replays sink log (outcome, ⟨env, log⟩) (outcome, ⟨env, sink⟩) :=
  ⟨[], (List.append_nil _).symm, .inl ⟨sink, rfl, rfl⟩⟩

lemma print (env : Environment) (line : String) :
    Replays sink log (Session.print ⟨env, log⟩ line) (Session.print ⟨env, sink⟩ line) := by
  refine ⟨[utf8 (line ++ "\n")], rfl, ?_⟩
  rw [Session.print]
  dsimp only
  rcases hwrite : Sink.write sink (utf8 (line ++ "\n")) with ⟨cause | done, after⟩
  · exact .inr ⟨cause, env, after, by rw [Sink.feed, hwrite], rfl⟩
  · exact .inl ⟨after, by rw [Sink.feed, hwrite]; rfl, rfl⟩

lemma define (env : Environment) (name : Token) (value : Value) :
    Replays sink log (Session.define ⟨env, log⟩ name value)
      (Session.define ⟨env, sink⟩ name value) := by
  rw [Session.define, Session.define]
  dsimp only
  cases env.define name value with
  | ok after => exact silent (.ok ()) after
  | error fault => exact silent (.error fault) env

/-- A scope is closed behind the lines of a block. -/
lemma leave {recorded : Except Fault Unit × Session Log} {actual : Except Fault Unit × Session W}
    (h : Replays sink log recorded actual) :
    Replays sink log (recorded.1, recorded.2.leave) (actual.1, actual.2.leave) := by
  obtain ⟨lines, hlines, ⟨after, hfeed, rfl⟩ | ⟨cause, env, after, hfeed, rfl⟩⟩ := h
  · exact ⟨lines, hlines, .inl ⟨after, hfeed, rfl⟩⟩
  · exact ⟨lines, hlines, .inr ⟨cause, env.pop, after, hfeed, rfl⟩⟩

/-- If the first part of a run is replayed, and the second part goes on with the same
variables, then the whole is replayed. -/
lemma andThen {recorded : Except Fault Unit × Session Log}
    {actual : Except Fault Unit × Session W} {next : Session Log → Except Fault Unit × Session Log}
    {next' : Session W → Except Fault Unit × Session W} (h : Replays sink log recorded actual)
    (hnext : ∀ env after log', Replays after log' (next ⟨env, log'⟩) (next' ⟨env, after⟩)) :
    Replays sink log (andThen recorded fun _ between => next between)
      (andThen actual fun _ between => next' between) := by
  obtain ⟨outcome, env, log'⟩ := recorded
  obtain ⟨lines, hlines, hreplay⟩ := h
  cases outcome with
  | error fault =>
      refine ⟨lines, hlines, ?_⟩
      obtain ⟨after, hfeed, rfl⟩ | ⟨cause, env', after, hfeed, rfl⟩ := hreplay
      · exact .inl ⟨after, hfeed, rfl⟩
      · exact .inr ⟨cause, env', after, hfeed, rfl⟩
  | ok =>
      obtain ⟨after, hfeed, rfl⟩ | ⟨cause, env', after, hfeed, rfl⟩ := hreplay
      · obtain ⟨more, hmore, hrest⟩ := hnext env after log'
        refine ⟨lines ++ more, ?_, ?_⟩
        · rw [← List.append_assoc, ← hlines]
          exact hmore
        · rw [Sink.feed_append_of_ok hfeed]
          exact hrest
      · -- the record goes on, and the run has ended
        obtain ⟨more, hmore, -⟩ := hnext env after log'
        refine ⟨lines ++ more, ?_, .inr ⟨cause, env', after, ?_, rfl⟩⟩
        · rw [← List.append_assoc, ← hlines]
          exact hmore
        · exact Sink.feed_append_of_error hfeed more

end Replays

/-- **A run replays its record** with any receiver. -/
theorem Statement.replays :
    (∀ (statement : Statement) (env : Environment) (sink : W) (log : Log),
      Replays sink log (statement.execute ⟨env, log⟩) (statement.execute ⟨env, sink⟩)) ∧
    ∀ (statements : List Statement) (env : Environment) (sink : W) (log : Log),
      Replays sink log (executeAll statements ⟨env, log⟩) (executeAll statements ⟨env, sink⟩) := by
  refine Statement.induction ?expression ?print ?declare ?block ?nil ?cons
  case expression =>
      intro expr env sink log
      rcases heq : expr.evaluate env with ⟨fault | value, after⟩
      · simpa only [execute, Session.evaluate, heq] using Replays.silent (.error fault) after
      · simpa only [execute, Session.evaluate, heq] using Replays.silent (.ok ()) after
  case print =>
      intro expr env sink log
      rcases heq : expr.evaluate env with ⟨fault | value, after⟩
      · simpa only [execute, Session.evaluate, heq] using Replays.silent (.error fault) after
      · simpa only [execute, Session.evaluate, heq] using Replays.print after value.text
  case declare =>
      intro name initial env sink log
      cases initial with
      | none => exact Replays.define env name .nil
      | some initial =>
          rcases heq : initial.evaluate env with ⟨fault | value, after⟩
          · simpa only [execute, Session.evaluate, heq] using Replays.silent (.error fault) after
          · simpa only [execute, Session.evaluate, heq] using Replays.define after name value
  case block =>
      intro body ih env sink log
      exact (ih env.push sink log).leave
  case nil =>
      intro env sink log
      exact Replays.silent (.ok ()) env
  case cons =>
      intro first rest ihfirst ihrest env sink log
      rw [executeAll_cons, executeAll_cons]
      exact (ihfirst env sink log).andThen ihrest

/-! ### Room for bytes -/

/-- That many bytes fit, where any number does if no room is given. -/
def Fits (room : Option Nat) (bytes : Nat) : Prop := ∀ limit ∈ room, bytes ≤ limit

/-- The leading bytes that fit. -/
def fitting (room : Option Nat) (bytes : List UInt8) : List UInt8 := room.elim bytes bytes.take

lemma fitting_of_fits {room : Option Nat} {bytes : List UInt8} (h : Fits room bytes.length) :
    fitting room bytes = bytes := by
  cases room with
  | none => rfl
  | some limit => exact List.take_of_length_le (h limit rfl)

/-- Bytes that fit take their room away from those behind them. -/
lemma fitting_append {room : Option Nat} {bytes : List UInt8} (h : Fits room bytes.length)
    (more : List UInt8) :
    fitting room (bytes ++ more) = bytes ++ fitting (room.map (· - bytes.length)) more := by
  cases room with
  | none => rfl
  | some limit =>
      have hlimit : bytes.length ≤ limit := h limit rfl
      show (bytes ++ more).take limit = bytes ++ more.take (limit - bytes.length)
      rw [List.take_append, List.take_of_length_le hlimit]

/-- Bytes that do not fit leave no room for those behind them. -/
lemma fitting_append_of_not_fits {room : Option Nat} {bytes : List UInt8}
    (h : ¬ Fits room bytes.length) (more : List UInt8) :
    fitting room (bytes ++ more) = fitting room bytes := by
  cases room with
  | none => exact absurd (fun _ hlimit => nomatch hlimit) h
  | some limit =>
      have hlimit : limit ≤ bytes.length := by
        by_contra hlt
        refine h ?_
        rintro _ ⟨⟩
        omega
      exact List.take_append_of_le_length hlimit

lemma fits_add {room : Option Nat} {bytes : Nat} (h : Fits room bytes) (more : Nat) :
    Fits room (bytes + more) ↔ Fits (room.map (· - bytes)) more := by
  cases room with
  | none => simp [Fits]
  | some limit =>
      have hlimit : bytes ≤ limit := h limit rfl
      simp only [Fits, Option.map_some, Option.mem_some_iff, forall_eq']
      omega

/-! ### Receivers with room -/

/-- What a receiver is asked to do. -/
inductive Sink.Request where
  | write (bytes : List UInt8)
  | flush

namespace Sink

/-- The bytes that come with a request. -/
def Request.bytes : Request → List UInt8
  | write bytes => bytes
  | flush => []

/-- Answers a request. -/
def serve (sink : W) : Request → Except String Unit × W
  | .write bytes => Sink.write sink bytes
  | .flush => Sink.flush sink

/-- The receiver after requests one after another, whether it has failed or not. -/
def after (sink : W) (requests : List Request) : W :=
  requests.foldl (fun sink request => (serve sink request).2) sink

/-- A receiver with room for so many bytes, or for any number. Of all that comes, it
has received what fits, and as long as all has fitted, it fails at a request exactly
if the bytes that come with it do not fit. -/
structure Accepts (received : W → List UInt8) (room : Option Nat) (sink : W) : Prop where
  received_after : ∀ requests,
    received (after sink requests) = received sink ++ fitting room (requests.flatMap (·.bytes))
  serve_eq_ok_iff : ∀ requests request, Fits room (requests.flatMap (·.bytes)).length →
    ((serve (after sink requests) request).1 = .ok () ↔
      Fits room (requests.flatMap (·.bytes) ++ request.bytes).length)

namespace Accepts

variable {received : W → List UInt8} {room : Option Nat} {sink : W}

/-- Requests that fit leave a receiver with the rest of the room. -/
lemma after (h : Accepts received room sink) (requests : List Request)
    (hfits : Fits room (requests.flatMap (·.bytes)).length) :
    Accepts received (room.map (· - (requests.flatMap (·.bytes)).length))
      (Sink.after sink requests) where
  received_after := by
    intro more
    have hall := h.received_after (requests ++ more)
    rw [Sink.after, List.foldl_append, List.flatMap_append, fitting_append hfits,
      ← List.append_assoc] at hall
    have hfirst := h.received_after requests
    rw [fitting_of_fits hfits] at hfirst
    rw [hfirst]
    exact hall
  serve_eq_ok_iff := by
    intro more request hmore
    have hall := h.serve_eq_ok_iff (requests ++ more) request
    rw [List.flatMap_append, List.length_append, fits_add hfits, List.append_assoc,
      List.length_append, fits_add hfits, Sink.after, List.foldl_append] at hall
    exact hall hmore

/-- A flush adds no bytes. -/
lemma received_flush (h : Accepts received room sink) (requests : List Request) :
    received (Sink.flush (Sink.after sink requests)).2 =
      received sink ++ fitting room (requests.flatMap (·.bytes)) := by
  have hflush := h.received_after (requests ++ [.flush])
  rwa [Sink.after, List.foldl_append, List.flatMap_append, List.flatMap_singleton, Request.bytes,
    List.append_nil] at hflush

/-- A flush takes no room. -/
lemma flush (h : Accepts received room sink) :
    (Sink.flush sink).1 = .ok () ∧ Accepts received room (Sink.flush sink).2 := by
  have hfits : Fits room 0 := fun _ _ => Nat.zero_le _
  have hafter := h.after [.flush] hfits
  refine ⟨(h.serve_eq_ok_iff [] .flush hfits).2 hfits, ?_⟩
  simpa [Sink.after, serve, Request.bytes] using hafter

/-- A line is taken exactly if it fits. -/
lemma write_eq_ok_iff (h : Accepts received room sink) (line : List UInt8) :
    (Sink.write sink line).1 = .ok () ↔ Fits room line.length :=
  h.serve_eq_ok_iff [] (.write line) fun _ _ => Nat.zero_le _

/-- A line that fits leaves the rest of the room. -/
lemma write (h : Accepts received room sink) {line : List UInt8} (hfits : Fits room line.length) :
    Accepts received (room.map (· - line.length)) (Sink.write sink line).2 := by
  have hafter := h.after [.write line]
  rw [List.flatMap_singleton] at hafter
  exact hafter hfits

/-- Lines that fit are all taken. -/
lemma feed_of_fits (h : Accepts received room sink) {lines : List (List UInt8)}
    (hfits : Fits room lines.flatten.length) :
    Sink.feed sink lines = (.ok (), Sink.after sink (lines.map .write)) := by
  induction lines generalizing sink room with
  | nil => rfl
  | cons line lines ih =>
      rw [List.flatten_cons, List.length_append] at hfits
      have hline : Fits room line.length :=
        fun limit hlimit => (Nat.le_add_right _ _).trans (hfits limit hlimit)
      have hlines := ih (h.write hline) ((fits_add hline _).1 hfits)
      have hok := (h.write_eq_ok_iff line).2 hline
      rcases hwrite : Sink.write sink line with ⟨cause | done, next⟩
      · rw [hwrite] at hok
        cases hok
      · rw [hwrite] at hlines
        simp only [Sink.feed, hwrite, hlines, List.map_cons, Sink.after, List.foldl_cons, serve]

/-- The first line that does not fit ends the feeding, and what fits has been
received. -/
lemma feed_of_not_fits (h : Accepts received room sink) {lines : List (List UInt8)}
    (hfits : ¬ Fits room lines.flatten.length) :
    ∃ cause requests, Sink.feed sink lines = (.error cause, Sink.after sink requests) ∧
      fitting room (requests.flatMap (·.bytes)) = fitting room lines.flatten := by
  induction lines generalizing sink room with
  | nil => exact absurd (fun _ _ => Nat.zero_le _) hfits
  | cons line lines ih =>
      by_cases hline : Fits room line.length
      · rw [List.flatten_cons, List.length_append, fits_add hline] at hfits
        obtain ⟨cause, requests, hfeed, hfitting⟩ := ih (h.write hline) hfits
        have hok := (h.write_eq_ok_iff line).2 hline
        refine ⟨cause, .write line :: requests, ?_, ?_⟩
        · rcases hwrite : Sink.write sink line with ⟨cause' | done, next⟩
          · rw [hwrite] at hok
            cases hok
          · rw [hwrite] at hfeed
            simp only [Sink.feed, hwrite, hfeed, Sink.after, List.foldl_cons, serve]
        · rw [List.flatMap_cons, List.flatten_cons, Request.bytes, fitting_append hline,
            fitting_append hline, hfitting]
      · have herror := (h.write_eq_ok_iff line).not.2 hline
        rcases hwrite : Sink.write sink line with ⟨cause | done, next⟩
        · refine ⟨cause, [.write line], ?_, ?_⟩
          · simp only [Sink.feed, hwrite, Sink.after, List.foldl_cons, List.foldl_nil, serve]
          · rw [List.flatMap_singleton, List.flatten_cons, fitting_append_of_not_fits hline]
            rfl
        · rw [hwrite] at herror
          exact absurd rfl herror

end Accepts

end Sink

/-- What requests make of a buffer. -/
lemma Buffer.after_eq (buffer : Buffer) (requests : List Sink.Request) :
    Sink.after buffer requests =
      { buffer with
        room := buffer.room.map (· - (requests.flatMap (·.bytes)).length)
        written := buffer.written ++ fitting buffer.room (requests.flatMap (·.bytes)) } := by
  obtain ⟨room, flushes, written⟩ := buffer
  induction requests generalizing room written with
  | nil => cases room <;> simp [Sink.after, fitting]
  | cons request requests ih =>
      cases request with
      | flush => exact ih room written
      | write bytes =>
          cases room with
          | none =>
              refine (ih none (written ++ bytes)).trans ?_
              simp [fitting, Sink.Request.bytes]
          | some limit =>
              refine (ih (some (limit - bytes.length)) (written ++ bytes.take limit)).trans ?_
              simp [fitting, Sink.Request.bytes, List.take_append, Nat.sub_sub]

/-- A buffer that can be flushed accepts what it has room for. -/
lemma Buffer.accepts (buffer : Buffer) (h : buffer.flushes = true) :
    Sink.Accepts Buffer.written buffer.room buffer where
  received_after := by
    intro requests
    rw [after_eq]
  serve_eq_ok_iff := by
    intro requests request hfits
    rw [after_eq, List.length_append, fits_add hfits]
    cases request with
    | flush => simp [Sink.serve, Sink.flush, flush, h, Sink.Request.bytes, Fits, Except.mapError]
    | write bytes =>
        cases hroom : buffer.room with
        | none => simp [Sink.serve, Sink.write, write, Fits, Except.mapError]
        | some limit =>
            simp only [Sink.serve, Sink.write, write, Option.map_some, Sink.Request.bytes, Fits,
              Option.mem_some_iff, forall_eq']
            split <;> simp_all [Except.mapError]

/-! ### Programs -/

/-- What is reported about a run. -/
def Report.ofOutcome : Except Fault Unit → Report
  | .ok _ => []
  | .error fault => [fault.diagnostic]

/-- How a program ends that runs from given variables, with the record of its lines. -/
def Session.record (env : Environment) (program : List Statement) :
    Except Fault Unit × Session Log :=
  Statement.executeAll program ⟨env, {}⟩

/-- All that a program prints, one line behind the other. -/
def Session.output (env : Environment) (program : List Statement) : List UInt8 :=
  (Session.record env program).2.sink.lines.flatten

namespace Session

variable {received : W → List UInt8} {room : Option Nat} (session : Session W)

/-- With a receiver that never fails, a program runs as recorded. -/
lemma executeAll_of_reliable (h : Sink.Reliable session.sink) (program : List Statement) :
    Statement.executeAll program session =
      ((record session.environment program).1,
        ⟨(record session.environment program).2.environment,
          Sink.writeAll session.sink (record session.environment program).2.sink.lines⟩) := by
  obtain ⟨lines, hlines, ⟨after, hfeed, hactual⟩ | ⟨cause, env, after, hfeed, hactual⟩⟩ :=
    Statement.replays.2 program session.environment session.sink {}
  · have hrecord : (record session.environment program).2.sink.lines = lines := hlines
    cases (h.feed lines).symm.trans hfeed
    rw [hactual, hrecord]
    rfl
  · cases (h.feed lines).symm.trans hfeed

/-- A program that runs and is flushed at the end. -/
lemma interpret_eq {outcome : Except Fault Unit} {after : Session W} {program : List Statement}
    (h : Statement.executeAll program session = (outcome, after)) :
    (session.interpret program).2 = ⟨after.environment, (Sink.flush after.sink).2⟩ ∧
    ((∃ fault, outcome = .error fault) ∨ (Sink.flush after.sink).1 = .ok () →
      (session.interpret program).1 = .ofOutcome outcome) := by
  rw [interpret, h]
  dsimp only [flush]
  cases outcome with
  | error fault => exact ⟨rfl, fun _ => rfl⟩
  | ok =>
      cases hflush : (Sink.flush after.sink).1 with
      | error cause => simp [Except.mapError]
      | ok => exact ⟨rfl, fun _ => rfl⟩

/-- A program whose output fits runs as recorded. -/
lemma interpret_of_fits (h : Sink.Accepts received room session.sink) (program : List Statement)
    (hfits : Fits room (output session.environment program).length) :
    (session.interpret program).1 = .ofOutcome (record session.environment program).1 ∧
    (session.interpret program).2.environment =
      (record session.environment program).2.environment ∧
    received (session.interpret program).2.sink =
      received session.sink ++ output session.environment program ∧
    Sink.Accepts received (room.map (· - (output session.environment program).length))
      (session.interpret program).2.sink := by
  obtain ⟨lines, hlines, hreplay⟩ :=
    Statement.replays.2 program session.environment session.sink {}
  have houtput : output session.environment program = lines.flatten := congrArg List.flatten hlines
  have hbytes : (lines.map Sink.Request.write).flatMap (·.bytes) = lines.flatten := by
    rw [List.flatMap_def, List.map_map]
    exact congrArg List.flatten (List.map_id lines)
  rw [houtput] at hfits ⊢
  have hfeed := h.feed_of_fits hfits
  obtain ⟨after, hfeed', hactual⟩ | ⟨cause, env, after, hfeed', -⟩ := hreplay
  · cases hfeed.symm.trans hfeed'
    rw [← hbytes] at hfits ⊢
    obtain ⟨hflush, haccepts⟩ := (h.after _ hfits).flush
    obtain ⟨hsession, hreport⟩ := interpret_eq session hactual
    refine ⟨hreport (.inr hflush), ?_, ?_, ?_⟩
    · rw [hsession]
      rfl
    · rw [hsession, h.received_flush, fitting_of_fits hfits]
    · rw [hsession]
      exact haccepts
  · cases hfeed.symm.trans hfeed'

/-- A receiver without a limit takes all that a program prints. -/
lemma interpret_of_endless (h : Sink.Accepts received none session.sink)
    (program : List Statement) :
    (session.interpret program).1 = .ofOutcome (record session.environment program).1 ∧
    (session.interpret program).2.environment =
      (record session.environment program).2.environment ∧
    received (session.interpret program).2.sink =
      received session.sink ++ output session.environment program ∧
    Sink.Accepts received none (session.interpret program).2.sink :=
  session.interpret_of_fits h program fun _ hlimit => nomatch hlimit

/-- A program whose output does not fit ends with the failure of the output, and what
fits has been received. -/
lemma interpret_of_not_fits (h : Sink.Accepts received room session.sink)
    (program : List Statement) (hfits : ¬ Fits room (output session.environment program).length) :
    (∃ cause, (session.interpret program).1 = [Fault.diagnostic (.output cause)]) ∧
    received (session.interpret program).2.sink =
      received session.sink ++ fitting room (output session.environment program) := by
  obtain ⟨lines, hlines, hreplay⟩ :=
    Statement.replays.2 program session.environment session.sink {}
  have houtput : output session.environment program = lines.flatten := congrArg List.flatten hlines
  rw [houtput] at hfits ⊢
  obtain ⟨cause, requests, hfeed, hfitting⟩ := h.feed_of_not_fits hfits
  obtain ⟨after, hfeed', -⟩ | ⟨cause', env, after, hfeed', hactual⟩ := hreplay
  · cases hfeed.symm.trans hfeed'
  · cases hfeed.symm.trans hfeed'
    obtain ⟨hsession, hreport⟩ := interpret_eq session hactual
    refine ⟨⟨cause, hreport (.inl ⟨_, rfl⟩)⟩, ?_⟩
    rw [hsession, h.received_flush, hfitting]

/-- What fits of the output has been received. -/
lemma received_interpret (h : Sink.Accepts received room session.sink)
    (program : List Statement) :
    received (session.interpret program).2.sink =
      received session.sink ++ fitting room (output session.environment program) := by
  by_cases hfits : Fits room (output session.environment program).length
  · obtain ⟨-, -, hreceived, -⟩ := session.interpret_of_fits h program hfits
    rw [hreceived, fitting_of_fits hfits]
  · exact (session.interpret_of_not_fits h program hfits).2

end Session

/-- **Output is cut, and never altered, by a receiver that becomes full.** Let a program
run twice from the same variables, once with a receiver that has room for a number of
bytes, and once with one that never fails. The first has received the leading bytes of
what the second has received, as many as there is room for. If that is all of them, the
runs end with the same variables and the same report. If not, the first run ends with
a failure of the output, which has no position, and has left all scopes that it has
opened. -/
theorem output_cut {W' : Type} [Sink W'] {received : W → List UInt8}
    {received' : W' → List UInt8} (program : List Statement) (env : Environment) (room : Nat)
    {full : W} {endless : W'} (hfull : Sink.Accepts received (some room) full)
    (hendless : Sink.Accepts received' none endless) :
    let limited := Session.interpret ⟨env, full⟩ program
    let unlimited := Session.interpret ⟨env, endless⟩ program
    ∃ output, received' unlimited.2.sink = received' endless ++ output ∧
      received limited.2.sink = received full ++ output.take (min room output.length) ∧
      (output.length ≤ room →
        limited.2.environment = unlimited.2.environment ∧ limited.1 = unlimited.1) ∧
      (room < output.length →
        (∃ cause, limited.1 = [.fault none ("Failed to write output: " ++ cause)]) ∧
        limited.2.environment.depth = env.depth) := by
  intro limited unlimited
  have hfits : Fits (some room) (Session.output env program).length ↔
      (Session.output env program).length ≤ room := by simp [Fits]
  obtain ⟨hreport, henv, hreceived, -⟩ :=
    Session.interpret_of_endless ⟨env, endless⟩ hendless program
  refine ⟨Session.output env program, hreceived, ?_, ?_, ?_⟩
  · rw [← List.take_eq_take_min]
    exact Session.received_interpret ⟨env, full⟩ hfull program
  · intro hle
    obtain ⟨hreport', henv', -, -⟩ :=
      Session.interpret_of_fits ⟨env, full⟩ hfull program (hfits.2 hle)
    exact ⟨henv'.trans henv.symm, hreport'.trans hreport.symm⟩
  · intro hlt
    obtain ⟨hcause, -⟩ :=
      Session.interpret_of_not_fits ⟨env, full⟩ hfull program (hfits.not.2 (by omega))
    have hnames := Session.addsNames_interpret ⟨env, full⟩ program
    exact ⟨hcause, (Environment.sameFrames_of_addsNames hnames).size⟩

/-- The cut falls into a character that has two bytes, inside a block. -/
theorem output_cut_in_character :
    let program := (read "var a = 1; \x7b print \"aé\"; print -nil; \x7d").program
    let full : Buffer := { room := some 2 }
    let endless : Buffer := {}
    Sink.Accepts Buffer.written (some 2) full ∧ Sink.Accepts Buffer.written none endless ∧
    (Session.interpret ⟨{}, endless⟩ program).2.sink.written = [0x61, 0xC3, 0xA9, 0x0A] ∧
    (Session.interpret ⟨{}, full⟩ program).2.sink.written = [0x61, 0xC3] ∧
    ∃ cause, (Session.interpret ⟨{}, full⟩ program).1 =
      [.fault none ("Failed to write output: " ++ cause)] := by
  intro program full endless
  have hfull : Sink.Accepts Buffer.written (some 2) full := full.accepts rfl
  have hendless : Sink.Accepts Buffer.written none endless := endless.accepts rfl
  have hwritten : (Session.interpret ⟨{}, endless⟩ program).2.sink.written =
      [0x61, 0xC3, 0xA9, 0x0A] := by decide +kernel
  obtain ⟨output, houtput, hcut, -, hfails⟩ := output_cut program {} 2 hfull hendless
  obtain rfl : [0x61, 0xC3, 0xA9, 0x0A] = output := hwritten.symm.trans houtput
  exact ⟨hfull, hendless, hwritten, hcut, (hfails (by decide)).1⟩

end Scriptlet
