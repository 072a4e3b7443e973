import Scriptlet.Proofs.Program.Walk
import Scriptlet.Proofs.Session.Restored

/-!
Scoping is static.

Running a program follows its walk: as long as nothing fails, the names in the
open scopes are those that the checker knows there, and a run that fails does so
at a place of the walk up to which the checker has accepted. So the checker knows
in advance which scoping fault a program can end with, and at which token.

* `Sink.MayFail`, `Sink.Reliable`: how output can fail.
* `Follows`: a run ends as its walk allows.
* `Expr.follows_evaluate`, `Statement.follows_execute`: expressions and statements
  follow their walks.
* `scoping_predicted`: the checker predicts the scoping faults of every program.
-/

namespace Scriptlet

/-! ### Receivers of output -/

section

variable {W : Type} [Sink W]

namespace Sink

/-- A receiver that has taken bytes one after another. -/
def writeAll (sink : W) (texts : List (List UInt8)) : W :=
  texts.foldl (fun sink bytes => (write sink bytes).2) sink

/-- The receiver may fail for this cause, now or after taking more. -/
def MayFail (sink : W) (cause : String) : Prop :=
  ∃ texts bytes, (write (writeAll sink texts) bytes).1 = .error cause

/-- The receiver never fails, now or after taking more. -/
def Reliable (sink : W) : Prop :=
  ∀ texts bytes, (write (writeAll sink texts) bytes).1 = .ok ()

lemma MayFail.of_writeAll {sink : W} {texts : List (List UInt8)} {cause : String}
    (h : MayFail (writeAll sink texts) cause) : MayFail sink cause := by
  obtain ⟨more, bytes, h⟩ := h
  refine ⟨texts ++ more, bytes, ?_⟩
  rwa [writeAll, List.foldl_append]

lemma Reliable.not_mayFail {sink : W} (h : Reliable sink) (cause : String) :
    ¬ MayFail sink cause := by
  rintro ⟨texts, bytes, hfails⟩
  rw [h texts bytes] at hfails
  cases hfails

end Sink

end

/-- A buffer without a limit never fails. -/
lemma Buffer.reliable {buffer : Buffer} (h : buffer.room = none) : Sink.Reliable buffer := by
  have room : ∀ texts, (Sink.writeAll buffer texts).room = none := by
    intro texts
    induction texts generalizing buffer with
    | nil => exact h
    | cons bytes texts ih =>
        apply ih
        simp only [Sink.write, write, h]
  intro texts bytes
  simp only [Sink.write, write, room texts]
  rfl

/-! ### Following a walk -/

/-- A run ends as its walk allows: it succeeds and the names are those known behind
the walk, or it fails at a place of the walk. -/
def Follows {α : Type} (fails : String → Prop) (names : List (Finset String))
    (walk : List Visit) (outcome : Except Fault α) (names' : List (Finset String)) : Prop :=
  match outcome with
  | .ok _ => check names walk = .ok names'
  | .error fault => Stops fails names walk fault

namespace Follows

variable {α β : Type} {fails : String → Prop} {names names' names'' : List (Finset String)}
  {walk more : List Visit}

lemma append {value : α} {outcome : Except Fault β}
    (h : Follows fails names walk (.ok value : Except Fault α) names')
    (h' : Follows fails names' more outcome names'') :
    Follows fails names (walk ++ more) outcome names'' := by
  cases outcome with
  | ok => exact (check_append_of_ok h more).trans h'
  | error fault => exact .behind h h'

lemma append_error {fault : Fault}
    (h : Follows fails names walk (.error fault : Except Fault α) names') (more : List Visit) :
    Follows fails names (walk ++ more) (.error fault : Except Fault β) names'' :=
  Stops.append h more

lemma mono {fails' : String → Prop} (himp : ∀ cause, fails cause → fails' cause)
    {outcome : Except Fault α} (h : Follows fails names walk outcome names') :
    Follows fails' names walk outcome names' := by
  cases outcome with
  | ok => exact h
  | error fault => exact Stops.mono himp h

end Follows

/-- Applying an operator follows its place. -/
lemma follows_unary {fails : String → Prop} {names : List (Finset String)} (op : UnaryOp)
    (operator : Token) (value : Value) :
    Follows fails names [.unary op operator] (op.apply operator value) names := by
  cases h : op.apply operator value with
  | ok => rfl
  | error fault => exact .of_raises (.type (UnaryOp.typeFault?_of_apply h))

lemma follows_binary {fails : String → Prop} {names : List (Finset String)} (op : BinaryOp)
    (operator : Token) (left right : Value) :
    Follows fails names [.binary op operator] (op.apply operator left right) names := by
  cases h : op.apply operator left right with
  | ok => rfl
  | error fault => exact .of_raises (.type (BinaryOp.typeFault?_of_apply h))

/-- Looking a name up follows its place, whatever is done with the variable. -/
lemma follows_refer {α : Type} {fails : String → Prop} {env : Environment} {name : Token}
    {outcome : Except Fault α} (h : ∀ fault, outcome = .error fault ↔
      fault = .undefinedVariable name ∧ ∀ scope ∈ env.names, name.lexeme ∉ scope) :
    Follows fails env.names [.refer name] outcome env.names := by
  cases outcome with
  | ok value =>
      have hknown : ∃ scope ∈ env.names, name.lexeme ∈ scope := by
        by_contra hunknown
        cases (h _).2 ⟨rfl, fun scope hscope hmem => hunknown ⟨scope, hscope, hmem⟩⟩
      simp only [Follows, check, Visit.check, if_pos hknown]
  | error fault =>
      obtain ⟨rfl, hunknown⟩ := (h fault).1 rfl
      apply Stops.of_raises
      apply Visit.Raises.scoping
      rw [Visit.check, if_neg]
      rintro ⟨scope, hscope, hmem⟩
      exact hunknown scope hscope hmem

/-- **Expressions follow their walks**, and do not touch the output. -/
theorem Expr.follows_evaluate (expr : Expr) (env : Environment) :
    Follows (fun _ => False) env.names expr.walk (expr.evaluate env).1 env.names := by
  induction expr generalizing env with
  | literal value => rfl
  | grouping inner ih => exact ih env
  | unary op operator operand ih =>
      have hoperand := ih env
      rcases heq : operand.evaluate env with ⟨fault | value, after⟩
      · rw [heq] at hoperand
        simpa only [walk, evaluate, heq] using hoperand.append_error _
      · rw [heq] at hoperand
        simpa only [walk, evaluate, heq] using hoperand.append (follows_unary op operator value)
  | binary op operator left right ihleft ihright =>
      have hleft := ihleft env
      have hnames := left.names_evaluate env
      rcases heq : left.evaluate env with ⟨fault | leftValue, between⟩
      · rw [heq] at hleft
        simpa only [walk, evaluate, heq] using hleft.append_error _
      · rw [heq] at hleft hnames
        have hright := ihright between
        rw [hnames] at hright
        rcases heq' : right.evaluate between with ⟨fault | rightValue, after⟩
        · rw [heq'] at hright
          simpa only [walk, evaluate, heq, heq'] using hleft.append (hright.append_error _)
        · rw [heq'] at hright
          simpa only [walk, evaluate, heq, heq'] using
            hleft.append (hright.append (follows_binary op operator leftValue rightValue))
  | read name => exact follows_refer fun _ => env.get_eq_error_iff
  | assign name value ih =>
      have hvalue := ih env
      have hnames := value.names_evaluate env
      rcases heq : value.evaluate env with ⟨fault | result, between⟩
      · rw [heq] at hvalue
        simpa only [walk, evaluate, heq] using hvalue.append_error _
      · rw [heq] at hvalue hnames
        have hassign : Follows (fun _ => False) between.names [.refer name]
            (between.assign name result) between.names :=
          follows_refer fun _ => between.assign_eq_error_iff
        rw [hnames] at hassign
        simp only [walk, evaluate, heq]
        refine hvalue.append ?_
        cases hresult : between.assign name result with
        | error fault =>
            rw [hresult] at hassign
            exact hassign
        | ok after =>
            rw [hresult] at hassign
            exact hassign

/-! ### Statements -/

variable {W : Type} [Sink W]

/-- A run follows its walk, and what it has done to the output is to write. -/
structure Session.Follows {α : Type} (before : Session W) (walk : List Visit)
    (outcome : Except Fault α) (after : Session W) : Prop where
  writes : ∃ texts, after.sink = Sink.writeAll before.sink texts
  follows : Scriptlet.Follows (Sink.MayFail before.sink) before.environment.names walk outcome
    after.environment.names

namespace Session

variable {α β : Type}

lemma Follows.append {before between after : Session W} {walk more : List Visit} {value : α}
    {outcome : Except Fault β} (h : before.Follows walk (.ok value : Except Fault α) between)
    (h' : between.Follows more outcome after) : before.Follows (walk ++ more) outcome after := by
  obtain ⟨texts, htexts⟩ := h.writes
  obtain ⟨texts', htexts'⟩ := h'.writes
  refine ⟨⟨texts ++ texts', ?_⟩, h.follows.append (h'.follows.mono ?_)⟩
  · rw [htexts', htexts, Sink.writeAll, Sink.writeAll, Sink.writeAll, List.foldl_append]
  · intro cause hcause
    rw [htexts] at hcause
    exact hcause.of_writeAll

lemma Follows.append_error {before after : Session W} {walk : List Visit} {fault : Fault}
    (h : before.Follows walk (.error fault : Except Fault α) after) (more : List Visit) :
    before.Follows (walk ++ more) (.error fault : Except Fault β) after :=
  ⟨h.writes, h.follows.append_error more⟩

lemma follows_evaluate (session : Session W) (expr : Expr) :
    session.Follows expr.walk (session.evaluate expr).1 (session.evaluate expr).2 where
  writes := ⟨[], rfl⟩
  follows := by
    rw [evaluate, expr.names_evaluate]
    exact (expr.follows_evaluate session.environment).mono fun _ => False.elim

lemma follows_print (session : Session W) (line : String) :
    session.Follows [.print] (session.print line).1 (session.print line).2 where
  writes := ⟨[utf8 (line ++ "\n")], rfl⟩
  follows := by
    rw [print]
    dsimp only
    cases h : (Sink.write session.sink (utf8 (line ++ "\n"))).1 with
    | ok => rfl
    | error cause => exact Stops.of_raises (.output ⟨[], _, h⟩)

lemma follows_define (session : Session W) (name : Token) (value : Value) :
    session.Follows [.declare name] (session.define name value).1
      (session.define name value).2 := by
  rw [define]
  cases h : session.environment.define name value with
  | ok after =>
      have hnew : name.lexeme ∉ session.environment.names.headD ∅ := by
        intro hmem
        rw [session.environment.define_eq_error_iff.2 ⟨rfl, hmem⟩] at h
        cases h
      refine ⟨⟨[], rfl⟩, ?_⟩
      simp only [Scriptlet.Follows, check, Visit.check, if_neg hnew,
        session.environment.names_of_define h]
  | error fault =>
      obtain ⟨rfl, hmem⟩ := session.environment.define_eq_error_iff.1 h
      refine ⟨⟨[], rfl⟩, Stops.of_raises (.scoping ?_)⟩
      rw [Visit.check, if_pos hmem]

lemma follows_enter (session : Session W) :
    session.Follows [.enter] (.ok () : Except Fault Unit) session.enter where
  writes := ⟨[], rfl⟩
  follows := by
    rw [enter, session.environment.names_push]
    rfl

lemma follows_leave {session : Session W} {outer : List (Finset String)}
    (h : Statement.AddsNames (∅ :: outer) session.environment.names) (houter : outer ≠ []) :
    session.Follows [.leave] (.ok () : Except Fault Unit) session.leave where
  writes := ⟨[], rfl⟩
  follows := by
    obtain ⟨inner, -, hnames⟩ := h
    rw [leave, session.environment.names_pop_of_cons hnames houter, hnames]
    rfl

end Session

/-- **Statements follow their walks.** -/
theorem Statement.follows_execute :
    (∀ (statement : Statement) (session : Session W),
      session.Follows statement.walk (statement.execute session).1
        (statement.execute session).2) ∧
    ∀ (statements : List Statement) (session : Session W),
      session.Follows (walkAll statements) (executeAll statements session).1
        (executeAll statements session).2 := by
  refine Statement.induction ?expression ?print ?declare ?block ?nil ?cons
  case expression =>
      intro expr session
      have hexpr := session.follows_evaluate expr
      rcases heq : session.evaluate expr with ⟨fault | value, after⟩
      · rw [heq] at hexpr
        simpa only [walk, execute, heq] using ⟨hexpr.writes, hexpr.follows⟩
      · rw [heq] at hexpr
        simpa only [walk, execute, heq] using ⟨hexpr.writes, hexpr.follows⟩
  case print =>
      intro expr session
      have hexpr := session.follows_evaluate expr
      rcases heq : session.evaluate expr with ⟨fault | value, after⟩
      · rw [heq] at hexpr
        simpa only [walk, execute, heq] using hexpr.append_error _
      · rw [heq] at hexpr
        simpa only [walk, execute, heq] using hexpr.append (after.follows_print value.text)
  case declare =>
      intro name initial session
      cases initial with
      | none => exact session.follows_define name .nil
      | some initial =>
          have hinitial := session.follows_evaluate initial
          rcases heq : session.evaluate initial with ⟨fault | value, after⟩
          · rw [heq] at hinitial
            simpa only [walk, execute, heq] using hinitial.append_error _
          · rw [heq] at hinitial
            simpa only [walk, execute, heq] using hinitial.append (after.follows_define name value)
  case block =>
      intro body ih session
      have hbody := ih session.enter
      have hnames := Statement.names_execute.2 body session.enter
      rw [Session.enter, Environment.names_push, ← Session.enter] at hnames
      rcases heq : executeAll body session.enter with ⟨fault | done, after⟩
      · rw [heq] at hbody
        have hinside : session.Follows (walk (.block body)) (.error fault : Except Fault Unit) after :=
          session.follows_enter.append (hbody.append_error [.leave])
        simpa only [execute, heq] using ⟨hinside.writes, hinside.follows⟩
      · rw [heq] at hbody hnames
        simp only [walk, execute, heq]
        exact session.follows_enter.append
          (hbody.append (Session.follows_leave hnames session.environment.names_ne_nil))
  case nil =>
      intro session
      exact ⟨⟨[], rfl⟩, rfl⟩
  case cons =>
      intro first rest ihfirst ihrest session
      have hfirst := ihfirst session
      rcases heq : first.execute session with ⟨fault | done, between⟩
      · rw [heq] at hfirst
        simpa only [walkAll, executeAll, heq] using hfirst.append_error _
      · rw [heq] at hfirst
        simpa only [walkAll, executeAll, heq] using hfirst.append (ihrest between)

/-! ### Predicted faults -/

/-- **Scoping faults are predicted exactly.** Let the checker walk a program from
the names in the open scopes, and let output never fail. If the checker accepts,
running the program ends with no scoping fault. If it rejects, it does so at a
first place, whose token is unknown or declared twice, and running the program
ends with exactly that fault at that token, or with a type fault of an operator
that comes before. -/
theorem scoping_predicted (program : List Statement) (session : Session W)
    (hsink : Sink.Reliable session.sink) :
    (∀ known, check session.environment.names (Statement.walkAll program) = .ok known →
      ∀ name, (Statement.executeAll program session).1 ≠ .error (.undefinedVariable name) ∧
        (Statement.executeAll program session).1 ≠ .error (.alreadyDefined name)) ∧
    ∀ predicted,
      check session.environment.names (Statement.walkAll program) = .error predicted →
      ∃ before visit after known, Statement.walkAll program = before ++ visit :: after ∧
        check session.environment.names before = .ok known ∧
        visit.check known = .error predicted ∧
        ∃ fault, (Statement.executeAll program session).1 = .error fault ∧
          (fault = predicted ∨ ∃ earlier ∈ before, earlier.typeFault? = some fault) := by
  have hrun := (Statement.follows_execute.2 program session).follows
  constructor
  · intro known hknown name
    have htype : ∀ fault, (Statement.executeAll program session).1 = .error fault →
        ∃ visit ∈ Statement.walkAll program, visit.typeFault? = some fault := by
      intro fault hfault
      rw [hfault] at hrun
      obtain htype | ⟨cause, hcause, -⟩ := Stops.of_accepted hknown hrun
      · exact htype
      · exact absurd hcause (hsink.not_mayFail cause)
    constructor
    · intro hfault
      obtain ⟨visit, -, hvisit⟩ := htype _ hfault
      exact (Visit.ne_scoping_of_typeFault? hvisit name).1 rfl
    · intro hfault
      obtain ⟨visit, -, hvisit⟩ := htype _ hfault
      exact (Visit.ne_scoping_of_typeFault? hvisit name).2 rfl
  · intro predicted hpredicted
    obtain ⟨before, visit, after, known, hwalk, hbefore, hvisit⟩ :=
      exists_of_check_eq_error hpredicted
    refine ⟨before, visit, after, known, hwalk, hbefore, hvisit, ?_⟩
    cases houtcome : (Statement.executeAll program session).1 with
    | ok =>
        rw [houtcome] at hrun
        cases hrun.symm.trans hpredicted
    | error fault =>
        rw [houtcome, hwalk] at hrun
        refine ⟨fault, rfl, ?_⟩
        obtain heq | htype | ⟨cause, hcause, -⟩ := Stops.of_rejected hbefore hvisit hrun
        · exact .inl heq
        · exact .inr htype
        · exact absurd hcause (hsink.not_mayFail cause)

/-- An identifier in the first line. -/
def Token.named (name : String) (column : Nat) : Token := ⟨.identifier, name, none, ⟨1, column⟩⟩

/-- In `var a; { var b = a; print b + c; }` the initial value of `b` is found in the
scope around the block, and the fault is at `c`. -/
theorem scoping_predicted_in_block :
    let program : List Statement :=
      [.declare (.named "a" 5) none,
        .block [.declare (.named "b" 14) (some (.read (.named "a" 18))),
          .print (.binary .add ⟨.symbol .plus, "+", none, ⟨1, 29⟩⟩ (.read (.named "b" 27))
            (.read (.named "c" 31)))]]
    let session : Session := {}
    Sink.Reliable session.sink ∧
    check session.environment.names (Statement.walkAll program) =
      .error (.undefinedVariable (.named "c" 31)) ∧
    ∃ fault, (Statement.executeAll program session).1 = .error fault ∧
      (fault = .undefinedVariable (.named "c" 31) ∨
        ∃ earlier ∈ Statement.walkAll program, earlier.typeFault? = some fault) := by
  intro program session
  have hsink : Sink.Reliable session.sink := Buffer.reliable rfl
  have hcheck : check session.environment.names (Statement.walkAll program) =
      .error (.undefinedVariable (.named "c" 31)) := rfl
  obtain ⟨before, visit, after, known, hwalk, -, -, fault, hfault, hcause⟩ :=
    (scoping_predicted program session hsink).2 _ hcheck
  refine ⟨hsink, hcheck, fault, hfault, hcause.imp_right ?_⟩
  rintro ⟨earlier, hearlier, htype⟩
  exact ⟨earlier, hwalk ▸ List.mem_append_left _ hearlier, htype⟩

end Scriptlet
