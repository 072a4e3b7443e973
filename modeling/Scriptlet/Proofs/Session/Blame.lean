import Scriptlet.Proofs.Grammar.Exact
import Scriptlet.Proofs.Session.Scoping
import Scriptlet.Session.Run

/-!
Every fault points at the token that caused it.

A fault belongs to a place of the program. The grammar puts there the very token
from which the place was read, and that token is one of the source, so what the
user is told about the fault leads back to the source.

* `Visit.StandsIn`, `StandIn`: places whose tokens are among given ones and are
  written as the places say.
* `Derives.standIn`, `DerivesProgram.standIn`: what is derived from tokens stands
  in them.
* `Blames`: messages and the tokens that they can be about.
* `fault_at_blamed_token`: faults of every run of every source.
-/

namespace Scriptlet

/-! ### Places in the tokens -/

/-- The token of a place is one of the tokens, and of the kind that the place asks
for. -/
def Visit.StandsIn (tokens : List Token) : Visit → Prop
  | .refer name | .declare name => name ∈ tokens ∧ name.kind = .identifier
  | .unary op operator => operator ∈ tokens ∧ operator.kind = .symbol op.symbol
  | .binary op operator => operator ∈ tokens ∧ operator.kind = .symbol op.symbol
  | .print | .enter | .leave => True

/-- All places of a walk stand in the tokens. -/
def StandIn (tokens : List Token) (walk : List Visit) : Prop :=
  ∀ visit ∈ walk, visit.StandsIn tokens

section

variable {tokens tokens' : List Token} {walk more : List Visit}

lemma Visit.StandsIn.mono {visit : Visit} (h : visit.StandsIn tokens) (hsub : tokens ⊆ tokens') :
    visit.StandsIn tokens' := by
  cases visit with
  | refer | declare | unary | binary => exact ⟨hsub h.1, h.2⟩
  | print | enter | leave => trivial

lemma StandIn.mono (h : StandIn tokens walk) (hsub : tokens ⊆ tokens') : StandIn tokens' walk :=
  fun visit hvisit => (h visit hvisit).mono hsub

lemma StandIn.nil : StandIn tokens [] := List.forall_mem_nil _

lemma StandIn.single {visit : Visit} (h : visit.StandsIn tokens) : StandIn tokens [visit] :=
  List.forall_mem_singleton.2 h

lemma StandIn.append (h : StandIn tokens walk) (h' : StandIn tokens more) :
    StandIn tokens (walk ++ more) :=
  List.forall_mem_append.2 ⟨h, h'⟩

end

namespace Grammar

/-- The places of a step come behind those of what it is put onto. -/
def Step.walk (step : Step) : List Visit := step.right.walk ++ [.binary step.op step.operator]

lemma walk_foldl_onto (steps : List Step) (first : Expr) :
    (steps.foldl Step.onto first).walk = first.walk ++ steps.flatMap Step.walk := by
  induction steps generalizing first with
  | nil => simp
  | cons step steps ih => simp [ih, Step.onto, Step.walk, Expr.walk]

mutual

/-- **Expressions stand in the tokens that they are derived from.** -/
theorem Derives.standIn {phrase : Phrase} {tokens : List Token} {tree : Expr} :
    Derives phrase tokens tree → StandIn tokens tree.walk
  | .expression h => h.standIn
  | .assign hname _ h => (h.standIn.mono (by simp)).append (.single ⟨by simp, hname⟩)
  | .equality h => h.standIn
  | .level h h' => by
      rw [walk_foldl_onto]
      exact (h.standIn.mono (by simp)).append (h'.standIn.mono (by simp))
  | .unary hop h => (h.standIn.mono (by simp)).append (.single ⟨by simp, hop.kind_eq⟩)
  | .primary h => h.standIn
  | .trueWord _ => .nil
  | .falseWord _ => .nil
  | .nilWord _ => .nil
  | .number _ _ => .nil
  | .string _ _ => .nil
  | .identifier h => .single ⟨by simp, h⟩
  | .grouping _ _ h => h.standIn.mono (by simp)

theorem Repeats.standIn {level : Precedence} {tokens : List Token} {steps : List Step} :
    Repeats level tokens steps → StandIn tokens (steps.flatMap Step.walk)
  | .nil => .nil
  | .cons hop h h' => by
      rw [List.flatMap_cons]
      refine .append (.append ?_ ?_) ?_
      · exact h.standIn.mono (by simp)
      · exact .single ⟨by simp, hop.kind_eq⟩
      · exact h'.standIn.mono (by simp)

end

mutual

/-- **Programs stand in the tokens that they are derived from.** -/
theorem DerivesProgram.standIn {tokens : List Token} {program : List Statement} :
    DerivesProgram tokens program → StandIn tokens (Statement.walkAll program)
  | .nil => .nil
  | .cons h h' => (h.standIn.mono (by simp)).append (h'.standIn.mono (by simp))

theorem DerivesDeclaration.standIn {tokens : List Token} {tree : Statement} :
    DerivesDeclaration tokens tree → StandIn tokens tree.walk
  | .bare _ hname _ => .single ⟨by simp, hname⟩
  | .initialized _ hname _ h _ =>
      (h.standIn.mono fun _ htoken => by simp [htoken]).append (.single ⟨by simp, hname⟩)
  | .statement h => h.standIn

theorem DerivesStatement.standIn {tokens : List Token} {tree : Statement} :
    DerivesStatement tokens tree → StandIn tokens tree.walk
  | .print _ h _ => (h.standIn.mono (by simp)).append (.single trivial)
  | .block _ h _ =>
      List.forall_mem_cons.2 ⟨trivial, (h.standIn.mono (by simp)).append (.single trivial)⟩
  | .expression h _ => h.standIn.mono (by simp)

end

end Grammar

/-! ### Messages -/

/-- A message about a fault can be about the token: operators that ask for numbers,
the one that also takes strings, and names. -/
inductive Blames (token : Token) : String → Prop where
  | operand (h : token.kind = .symbol .minus) : Blames token "Operand must be a number."
  | operands {symbol : Symbol} (h : token.kind = .symbol symbol)
      (h' : symbol ∈ [.minus, .star, .slash, .less, .lessEqual, .greater, .greaterEqual]) :
      Blames token "Operands must be numbers."
  | sum (h : token.kind = .symbol .plus) : Blames token "Operands must be numbers or strings."
  | undefined (h : token.kind = .identifier) :
      Blames token ("Undefined variable '" ++ token.lexeme ++ "'.")
  | duplicate (h : token.kind = .identifier) :
      Blames token ("Variable '" ++ token.lexeme ++ "' is already defined in this scope.")

/-- The fault is about one of the tokens, and says so. -/
def Fault.PointsInto (tokens : List Token) (fault : Fault) : Prop :=
  ∃ token ∈ tokens, fault.token? = some token ∧ Blames token fault.message

variable {tokens : List Token} {names : List (Finset String)}

lemma Visit.StandsIn.pointsInto_of_check {visit : Visit} {fault : Fault}
    (h : visit.StandsIn tokens) (hcheck : visit.check names = .error fault) :
    fault.PointsInto tokens := by
  cases visit with
  | refer name =>
      rw [check] at hcheck
      split at hcheck
      · cases hcheck
      · cases hcheck
        exact ⟨name, h.1, rfl, .undefined h.2⟩
  | declare name =>
      rw [check] at hcheck
      split at hcheck
      · cases hcheck
        exact ⟨name, h.1, rfl, .duplicate h.2⟩
      · cases hcheck
  | unary | binary | print | enter | leave => cases hcheck

lemma Visit.StandsIn.pointsInto_of_typeFault? {visit : Visit} {fault : Fault}
    (h : visit.StandsIn tokens) (htype : visit.typeFault? = some fault) :
    fault.PointsInto tokens := by
  cases visit with
  | unary op operator =>
      obtain ⟨hmem, hkind⟩ := h
      cases op with
      | negate =>
          cases htype
          exact ⟨operator, hmem, rfl, .operand hkind⟩
      | not => cases htype
  | binary op operator =>
      obtain ⟨hmem, hkind⟩ := h
      cases op with
      | add =>
          cases htype
          exact ⟨operator, hmem, rfl, .sum hkind⟩
      | equal | notEqual => cases htype
      | sub | mul | div | less | greater | lessEqual | greaterEqual =>
          cases htype
          exact ⟨operator, hmem, rfl, .operands hkind (by decide)⟩
  | refer | declare | print | enter | leave => cases htype

/-- A walk that stands in tokens ends with a fault that points into them, unless
output fails. -/
lemma Stops.pointsInto {fails : String → Prop} {walk : List Visit} {fault : Fault}
    (h : Stops fails names walk fault) (hwalk : StandIn tokens walk) :
    fault.PointsInto tokens ∨ ∃ cause, fails cause ∧ fault = .output cause := by
  obtain ⟨before, visit, after, known, rfl, -, hvisit⟩ := h
  have hstands : visit.StandsIn tokens := hwalk visit (by simp)
  cases hvisit with
  | scoping hcheck => exact .inl (hstands.pointsInto_of_check hcheck)
  | type htype => exact .inl (hstands.pointsInto_of_typeFault? htype)
  | output hcause => exact .inr ⟨_, hcause, rfl⟩

/-! ### Reading -/

lemma not_isFault_of_mem_ofSegments {source : List Char} {cursor : Cursor}
    {segments : List Segment} {d : Diagnostic}
    (h : d ∈ (Scan.ofSegments source cursor segments).report) : d.isFault = false := by
  induction segments generalizing cursor with
  | nil => cases h
  | cons segment segments ih =>
      rw [Scan.ofSegments, Scan.prepend] at h
      split at h
      · exact ih h
      · obtain rfl | h := List.mem_cons.1 h
        · rfl
        · exact ih h
      · exact ih h

lemma Complaint.not_isFault (c : Complaint) : c.diagnostic.isFault = false := by
  rw [diagnostic, Diagnostic.atToken]
  split <;> rfl

/-- Reading reports no faults. -/
lemma not_isFault_of_mem_read {source : String} {d : Diagnostic} (h : d ∈ (read source).report) :
    d.isFault = false := by
  obtain h | h := List.mem_append.1 h
  · exact not_isFault_of_mem_ofSegments h
  · obtain ⟨c, -, rfl⟩ := List.mem_map.1 h
    exact c.not_isFault

/-- A source that is not rejected is read without any report. -/
lemma read_report_eq_nil {source : String} (h : ¬ (read source).report.isRejection = true) :
    (read source).report = [] := by
  rw [List.eq_nil_iff_forall_not_mem]
  intro d hd
  apply h
  exact List.any_eq_true.2 ⟨d, hd, by simp [not_isFault_of_mem_read hd]⟩

/-- The program of a source without errors stands in the tokens of the source. -/
lemma standIn_read {source : String} (h : (read source).report = []) :
    StandIn (scan source).tokens (Statement.walkAll (read source).program) := by
  obtain ⟨-, hparse⟩ := List.append_eq_nil_iff.1 h
  have hderives := Grammar.derives_of_declarations (List.map_eq_nil_iff.1 hparse)
  exact hderives.standIn.mono fun _ htoken => List.takeWhile_subset _ htoken

/-! ### Runs -/

variable {W : Type} [Sink W]

/-- A way in which output may fail: at a line, or when it is passed on at the end. -/
def Sink.Failure (sink : W) (cause : String) : Prop :=
  MayFail sink cause ∨ ∃ texts, (flush (writeAll sink texts)).1 = .error cause

/-- What is reported about a program that stands in tokens is a fault that points
into them, or a failure of the output. -/
lemma Session.exists_fault_of_mem_interpret {session : Session W} {program : List Statement}
    {d : Diagnostic} (hprogram : StandIn tokens (Statement.walkAll program))
    (h : d ∈ (session.interpret program).1) :
    ∃ fault : Fault, d = fault.diagnostic ∧ (fault.PointsInto tokens ∨
      ∃ cause, Sink.Failure session.sink cause ∧ fault = .output cause) := by
  have hrun := Statement.follows_execute.2 program session
  rw [interpret] at h
  rcases heq : Statement.executeAll program session with ⟨fault | done, after⟩
  · rw [heq] at h hrun
    refine ⟨fault, List.mem_singleton.1 h, (hrun.follows.pointsInto hprogram).imp_right ?_⟩
    rintro ⟨cause, hcause, rfl⟩
    exact ⟨cause, .inl hcause, rfl⟩
  · rw [heq] at h hrun
    obtain ⟨texts, htexts⟩ := hrun.writes
    cases hflush : (Sink.flush after.sink).1 with
    | ok => simp [flush, hflush, Except.mapError] at h
    | error cause =>
        refine ⟨.output cause, by simpa [flush, hflush, Except.mapError] using h, .inr ?_⟩
        exact ⟨cause, .inr ⟨texts, htexts ▸ hflush⟩, rfl⟩

/-- A fault is reported only about a source without errors, by its program. -/
lemma Session.mem_interpret_of_mem_run {session : Session W} {source : String} {d : Diagnostic}
    (h : d ∈ (session.run source).1) (hfault : d.isFault = true) :
    (read source).report = [] ∧ d ∈ (session.interpret (read source).program).1 := by
  have hread : d ∉ (read source).report := by
    intro hd
    rw [not_isFault_of_mem_read hd] at hfault
    cases hfault
  rw [run, runFlagged] at h
  split at h
  case isTrue =>
      rw [FlaggedReport.report_ofReport] at h
      exact absurd h hread
  case isFalse hkept =>
      rw [FlaggedReport.rejected_ofReport] at hkept
      rw [FlaggedReport.report_addAll, FlaggedReport.report_ofReport] at h
      exact ⟨read_report_eq_nil hkept, (List.mem_append.1 h).resolve_left hread⟩

/-- **Every fault points at the token that caused it.** Whatever a session holds,
and whatever source it runs: a fault that is reported at a position stands at a
token of the source with that position, and its message is one that this token can
have caused. A fault without a position is a failure of the output. -/
theorem fault_at_blamed_token (session : Session W) (source : String) :
    (∀ position message, .fault (some position) message ∈ (session.run source).1 →
      ∃ token ∈ (scan source).tokens, token.position = position ∧ Blames token message) ∧
    ∀ message, .fault none message ∈ (session.run source).1 →
      ∃ cause, message = "Failed to write output: " ++ cause ∧
        Sink.Failure session.sink cause := by
  have hfault : ∀ position message, .fault position message ∈ (session.run source).1 →
      ∃ fault : Fault, .fault position message = fault.diagnostic ∧
        (fault.PointsInto (scan source).tokens ∨
          ∃ cause, Sink.Failure session.sink cause ∧ fault = .output cause) := by
    intro position message h
    obtain ⟨hread, h⟩ := Session.mem_interpret_of_mem_run h rfl
    exact Session.exists_fault_of_mem_interpret (standIn_read hread) h
  constructor
  · intro position message h
    obtain ⟨fault, heq, ⟨token, hmem, htoken, hblames⟩ | ⟨cause, -, rfl⟩⟩ := hfault _ _ h
    · rw [Fault.diagnostic, htoken] at heq
      cases heq
      exact ⟨token, hmem, rfl, hblames⟩
    · cases heq
  · intro message h
    obtain ⟨fault, heq, ⟨token, -, htoken, -⟩ | ⟨cause, hcause, rfl⟩⟩ := hfault _ _ h
    · rw [Fault.diagnostic, htoken] at heq
      cases heq
    · cases heq
      exact ⟨cause, rfl, hcause⟩

/-- The sum of two strings is a string, and the fault is at the minus behind it.
Where no output fits, the first line of output ends the run before that. -/
theorem fault_at_blamed_token_in_block :
    let source := "var a = \"x\";\n\x7b print a; print a + a - true; \x7d"
    let session : Session := {}
    let full : Session := { sink := { room := some 0 } }
    (.fault (some ⟨2, 24⟩) "Operands must be numbers." ∈ (session.run source).1 ∧
      ∃ token ∈ (scan source).tokens, token.position = ⟨2, 24⟩ ∧
        Blames token "Operands must be numbers.") ∧
    .fault none "Failed to write output: sink full" ∈ (full.run source).1 ∧
      ∃ cause, "Failed to write output: sink full" = "Failed to write output: " ++ cause ∧
        Sink.Failure full.sink cause := by
  intro source session full
  have hminus : .fault (some ⟨2, 24⟩) "Operands must be numbers." ∈ (session.run source).1 := by
    decide +kernel
  have hfull : .fault none "Failed to write output: sink full" ∈ (full.run source).1 := by
    decide +kernel
  exact ⟨⟨hminus, (fault_at_blamed_token session source).1 _ _ hminus⟩,
    hfull, (fault_at_blamed_token full source).2 _ hfull⟩

end Scriptlet
