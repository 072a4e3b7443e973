import Scriptlet.Proofs.Environment.Agreement
import Scriptlet.Proofs.Session.Output

/-!
A run touches only the variables that its program names.

The names of a program are those that it reads, assigns to or declares. Two runs of a program
do the same if they begin with environments that agree on its names, whatever other variables
there are. And a run leaves all values under names that it neither assigns to nor declares.

* `Mention`, `Statement.mentionsAll`: where a program has names.
* `Statement.named`, `Statement.altered`: the names of a program, and those that may get another
  value.
* `Alike`: runs with the same outcome.
* `Expr.alike_evaluate`, `Statement.alike_execute`: the same program on environments that agree.
* `Expr.evaluate_leaves`, `Statement.execute_leaves`: what remains under the other names.
* `run_touches_named_variables`: both, and what an expression does not do.
-/

namespace Scriptlet

open Environment (AgreeOn)

/-! ### Names of a program -/

/-- A place of a program that has the name of a variable. -/
inductive Mention where
  | read (name : Token)
  | assign (name : Token)
  | declare (name : Token)

namespace Mention

/-- The name that is mentioned. -/
def name : Mention → String
  | read name | assign name | declare name => name.lexeme

/-- The variable may get a value here. -/
def alters : Mention → Bool
  | read _ => false
  | assign _ | declare _ => true

end Mention

/-- The names in an expression. -/
def Expr.mentions : Expr → List Mention
  | .literal _ => []
  | .grouping inner => inner.mentions
  | .unary _ _ operand => operand.mentions
  | .binary _ _ left right => left.mentions ++ right.mentions
  | .read name => [.read name]
  | .assign name value => .assign name :: value.mentions

namespace Statement

mutual

/-- The names in a statement. -/
def mentions : Statement → List Mention
  | .expression expr | .print expr => expr.mentions
  | .declare name none => [.declare name]
  | .declare name (some initial) => .declare name :: initial.mentions
  | .block body => mentionsAll body

/-- The names in a program. -/
def mentionsAll : List Statement → List Mention
  | [] => []
  | statement :: rest => statement.mentions ++ mentionsAll rest

end

/-- The names that occur in a program. -/
def named (program : List Statement) : Finset String :=
  ((mentionsAll program).map (·.name)).toFinset

/-- The names that a program assigns to or declares. -/
def altered (program : List Statement) : Finset String :=
  (((mentionsAll program).filter (·.alters)).map (·.name)).toFinset

lemma name_mem_named {program : List Statement} {mention : Mention}
    (h : mention ∈ mentionsAll program) : mention.name ∈ named program :=
  List.mem_toFinset.2 (List.mem_map_of_mem h)

lemma name_mem_altered {program : List Statement} {mention : Mention}
    (h : mention ∈ mentionsAll program) (halters : mention.alters) :
    mention.name ∈ altered program :=
  List.mem_toFinset.2 (List.mem_map_of_mem (List.mem_filter.2 ⟨h, halters⟩))

end Statement

/-! ### Environments that agree -/

/-- Two runs have the same outcome, and have left related states. -/
def Alike {α σ τ : Type} (S : σ → τ → Prop) (run : Except Fault α × σ)
    (run' : Except Fault α × τ) : Prop :=
  run.1 = run'.1 ∧ S run.2 run'.2

lemma Alike.andThen {α β σ τ : Type} {S : σ → τ → Prop} {run : Except Fault α × σ}
    {run' : Except Fault α × τ} {next : α → σ → Except Fault β × σ}
    {next' : α → τ → Except Fault β × τ} (h : Alike S run run')
    (hnext : ∀ a s t, S s t → Alike S (next a s) (next' a t)) :
    Alike S (andThen run next) (andThen run' next') := by
  obtain ⟨outcome, s⟩ := run
  obtain ⟨outcome', t⟩ := run'
  obtain ⟨rfl, hstate⟩ := h
  cases outcome with
  | ok a => exact hnext a s t hstate
  | error fault => exact ⟨rfl, hstate⟩

section Alike

variable {names : Set String}

/-- **An expression has the same value or fault** in environments that agree on its names. -/
theorem Expr.alike_evaluate (expr : Expr) (hexpr : ∀ mention ∈ expr.mentions, mention.name ∈ names)
    {env env' : Environment} (h : AgreeOn names env env') :
    Alike (AgreeOn names) (expr.evaluate env) (expr.evaluate env') := by
  induction expr generalizing env env' with
  | literal value => exact ⟨rfl, h⟩
  | grouping inner ih => exact ih hexpr h
  | unary op operator operand ih =>
      rw [evaluate_unary, evaluate_unary]
      refine (ih hexpr h).andThen ?_
      intro value after after' hafter
      exact ⟨rfl, hafter⟩
  | binary op operator left right ihleft ihright =>
      obtain ⟨hleft, hright⟩ := List.forall_mem_append.1 hexpr
      rw [evaluate_binary, evaluate_binary]
      refine (ihleft hleft h).andThen ?_
      intro leftValue between between' hbetween
      refine (ihright hright hbetween).andThen ?_
      intro rightValue after after' hafter
      exact ⟨rfl, hafter⟩
  | read name => exact ⟨h.get (hexpr _ List.mem_cons_self), h⟩
  | assign name value ih =>
      obtain ⟨hname, hvalue⟩ := List.forall_mem_cons.1 hexpr
      rw [evaluate_assign, evaluate_assign]
      refine (ih hvalue h).andThen ?_
      intro result between between' hbetween
      -- the variable is in corresponding scopes, or in none of both environments
      obtain ⟨fault, hassign, hassign'⟩ | ⟨after, after', hassign, hassign', hafter⟩ :=
        hbetween.assign hname result
      · rw [hassign, hassign']
        exact ⟨rfl, hbetween⟩
      · rw [hassign, hassign']
        exact ⟨rfl, hafter⟩

/-- The environments agree, and the same lines have been recorded. -/
structure Session.SameRecord (names : Set String) (session session' : Session Log) : Prop where
  environment : session.environment.AgreeOn names session'.environment
  sink : session.sink = session'.sink

namespace Session

variable {session session' : Session Log}

lemma alike_evaluate (expr : Expr) (hexpr : ∀ mention ∈ expr.mentions, mention.name ∈ names)
    (h : session.SameRecord names session') :
    Alike (Session.SameRecord names) (session.evaluate expr) (session'.evaluate expr) := by
  obtain ⟨houtcome, henv⟩ := expr.alike_evaluate hexpr h.environment
  exact ⟨houtcome, henv, h.sink⟩

lemma alike_print (line : String) (h : session.SameRecord names session') :
    Alike (Session.SameRecord names) (session.print line) (session'.print line) := by
  refine ⟨rfl, h.environment, ?_⟩
  rw [print, print, h.sink]

lemma alike_define {name : Token} (hname : name.lexeme ∈ names) (value : Value)
    (h : session.SameRecord names session') :
    Alike (Session.SameRecord names) (session.define name value) (session'.define name value) := by
  rw [define, define]
  obtain ⟨fault, hdefine, hdefine'⟩ | ⟨after, after', hdefine, hdefine', hafter⟩ :=
    h.environment.define hname value
  · rw [hdefine, hdefine']
    exact ⟨rfl, h⟩
  · rw [hdefine, hdefine']
    exact ⟨rfl, hafter, h.sink⟩

end Session

/-- **Statements do the same** in environments that agree on their names. -/
theorem Statement.alike_execute :
    (∀ (statement : Statement), (∀ mention ∈ statement.mentions, mention.name ∈ names) →
      ∀ session session', Session.SameRecord names session session' →
        Alike (Session.SameRecord names) (statement.execute session) (statement.execute session')) ∧
    ∀ (statements : List Statement), (∀ mention ∈ mentionsAll statements, mention.name ∈ names) →
      ∀ session session', Session.SameRecord names session session' →
        Alike (Session.SameRecord names) (executeAll statements session)
          (executeAll statements session') := by
  refine Statement.induction ?expression ?print ?declare ?block ?nil ?cons
  case expression =>
      intro expr hexpr session session' h
      rw [execute_expression, execute_expression]
      refine (Session.alike_evaluate expr hexpr h).andThen ?_
      intro value after after' hafter
      exact ⟨rfl, hafter⟩
  case print =>
      intro expr hexpr session session' h
      rw [execute_print, execute_print]
      refine (Session.alike_evaluate expr hexpr h).andThen ?_
      intro value after after' hafter
      exact Session.alike_print value.text hafter
  case declare =>
      intro name initial hdeclare session session' h
      cases initial with
      | none => exact Session.alike_define (hdeclare _ List.mem_cons_self) .nil h
      | some initial =>
          obtain ⟨hname, hinitial⟩ := List.forall_mem_cons.1 hdeclare
          rw [execute_declare, execute_declare]
          refine (Session.alike_evaluate initial hinitial h).andThen ?_
          intro value after after' hafter
          exact Session.alike_define hname value hafter
  case block =>
      intro body ih hbody session session' h
      obtain ⟨houtcome, hafter⟩ :=
        ih hbody session.enter session'.enter ⟨h.environment.push, h.sink⟩
      exact ⟨houtcome, hafter.environment.pop, hafter.sink⟩
  case nil =>
      intro _ session session' h
      exact ⟨rfl, h⟩
  case cons =>
      intro first rest ihfirst ihrest hmentions session session' h
      obtain ⟨hfirst, hrest⟩ := List.forall_mem_append.1 hmentions
      rw [executeAll_cons, executeAll_cons]
      refine (ihfirst hfirst session session' h).andThen ?_
      intro _ between between' hbetween
      exact ihrest hrest between between' hbetween

end Alike

/-! ### Other names -/

/-- Where a run goes step by step, it goes as a whole. -/
lemma reaches_andThen {α β σ : Type} {R : σ → σ → Prop}
    (trans : ∀ {s t u}, R s t → R t u → R s u) {start : σ} {run : Except Fault α × σ}
    {next : α → σ → Except Fault β × σ} (h : R start run.2)
    (hnext : ∀ a between, R between (next a between).2) : R start (andThen run next).2 := by
  obtain ⟨outcome, between⟩ := run
  cases outcome with
  | ok a => exact trans h (hnext a between)
  | error fault => exact h

section Leaves

variable {names : Set String}

/-- **An expression leaves the variables** that it does not assign to. -/
theorem Expr.evaluate_leaves (expr : Expr)
    (hexpr : ∀ mention ∈ expr.mentions, mention.alters → mention.name ∉ names)
    (env : Environment) : AgreeOn names env (expr.evaluate env).2 := by
  induction expr generalizing env with
  | literal value => exact .refl names env
  | grouping inner ih => exact ih hexpr env
  | unary op operator operand ih =>
      rw [evaluate_unary]
      exact reaches_andThen .trans (ih hexpr env) fun _ after => .refl names after
  | binary op operator left right ihleft ihright =>
      obtain ⟨hleft, hright⟩ := List.forall_mem_append.1 hexpr
      rw [evaluate_binary]
      refine reaches_andThen .trans (ihleft hleft env) ?_
      intro leftValue between
      exact reaches_andThen .trans (ihright hright between) fun _ after => .refl names after
  | read name => exact .refl names env
  | assign name value ih =>
      obtain ⟨hname, hvalue⟩ := List.forall_mem_cons.1 hexpr
      rw [evaluate_assign]
      refine reaches_andThen .trans (ih hvalue env) ?_
      intro result between
      split
      case h_1 => exact .refl names between
      case h_2 after hassign => exact .of_assign hassign (hname rfl)

namespace Session

variable {W : Type}

/-- All values under the names are the same after a run as before it. -/
def Leaves (names : Set String) (before after : Session W) : Prop :=
  AgreeOn names before.environment after.environment

lemma Leaves.refl (names : Set String) (session : Session W) : Leaves names session session :=
  AgreeOn.refl names session.environment

lemma Leaves.trans {first second third : Session W} (h : Leaves names first second)
    (h' : Leaves names second third) : Leaves names first third :=
  AgreeOn.trans h h'

lemma evaluate_leaves {expr : Expr}
    (hexpr : ∀ mention ∈ expr.mentions, mention.alters → mention.name ∉ names)
    (session : Session W) : Leaves names session (session.evaluate expr).2 :=
  expr.evaluate_leaves hexpr session.environment

lemma define_leaves {name : Token} (hname : name.lexeme ∉ names) (session : Session W)
    (value : Value) : Leaves names session (session.define name value).2 := by
  rw [define]
  split
  case h_1 after hdefine => exact AgreeOn.of_define hdefine hname
  case h_2 => exact .refl names session

end Session

/-- **Statements leave the variables** that they neither assign to nor declare. -/
theorem Statement.execute_leaves {W : Type} [Sink W] :
    (∀ (statement : Statement),
      (∀ mention ∈ statement.mentions, mention.alters → mention.name ∉ names) →
      ∀ session : Session W, session.Leaves names (statement.execute session).2) ∧
    ∀ (statements : List Statement),
      (∀ mention ∈ mentionsAll statements, mention.alters → mention.name ∉ names) →
      ∀ session : Session W, session.Leaves names (executeAll statements session).2 := by
  refine Statement.induction ?expression ?print ?declare ?block ?nil ?cons
  case expression =>
      intro expr hexpr session
      rw [execute_expression]
      exact reaches_andThen .trans (session.evaluate_leaves hexpr) fun _ => .refl names
  case print =>
      intro expr hexpr session
      rw [execute_print]
      exact reaches_andThen .trans (session.evaluate_leaves hexpr) fun _ after =>
        AgreeOn.refl names after.environment
  case declare =>
      intro name initial hdeclare session
      cases initial with
      | none => exact session.define_leaves (hdeclare _ List.mem_cons_self rfl) .nil
      | some initial =>
          obtain ⟨hname, hinitial⟩ := List.forall_mem_cons.1 hdeclare
          rw [execute_declare]
          exact reaches_andThen .trans (session.evaluate_leaves hinitial) fun value after =>
            after.define_leaves (hname rfl) value
  case block =>
      intro body ih hbody session
      exact (ih hbody session.enter).of_push
  case nil =>
      intro _ session
      exact .refl names session
  case cons =>
      intro first rest ihfirst ihrest hmentions session
      obtain ⟨hfirst, hrest⟩ := List.forall_mem_append.1 hmentions
      rw [executeAll_cons]
      exact reaches_andThen .trans (ihfirst hfirst session) fun _ => ihrest hrest

end Leaves

/-! ### Runs -/

/-- **A run touches only the variables that its program names.** From environments that agree
on these names, and with receivers that never fail, the same lines are written, the runs end
with the same result or fault, and the environments still agree. In any run, all values under
names that the program neither assigns to nor declares stay as they are, scope by scope. And an
expression writes nothing and makes no variable. -/
theorem run_touches_named_variables (program : List Statement) {W W' : Type} [Sink W] [Sink W'] :
    (∀ (session : Session W) (session' : Session W'),
      session.environment.AgreeOn (Statement.named program) session'.environment →
      Sink.Reliable session.sink → Sink.Reliable session'.sink →
      let run := Statement.executeAll program session
      let run' := Statement.executeAll program session'
      (∃ lines, run.2.sink = Sink.writeAll session.sink lines ∧
        run'.2.sink = Sink.writeAll session'.sink lines) ∧
      run.1 = run'.1 ∧
      run.2.environment.AgreeOn (Statement.named program) run'.2.environment) ∧
    (∀ session : Session W, session.environment.AgreeOn (Statement.altered program : Set String)ᶜ
      (Statement.executeAll program session).2.environment) ∧
    ∀ (session : Session W) (expr : Expr),
      (session.evaluate expr).2.sink = session.sink ∧
      (session.evaluate expr).2.environment.names = session.environment.names := by
  refine ⟨?_, ?_, ?_⟩
  · intro session session' henv hsink hsink' run run'
    have hrun : run = _ := session.executeAll_of_reliable hsink program
    have hrun' : run' = _ := session'.executeAll_of_reliable hsink' program
    obtain ⟨houtcome, hafter⟩ := Statement.alike_execute.2 program
      (fun _ => Statement.name_mem_named) ⟨session.environment, {}⟩ ⟨session'.environment, {}⟩
      ⟨henv, rfl⟩
    rw [hrun, hrun']
    refine ⟨⟨_, rfl, ?_⟩, houtcome, hafter.environment⟩
    rw [Session.record, Session.record, hafter.sink]
  · intro session
    refine Statement.execute_leaves.2 program ?_ session
    intro mention hmention halters hmem
    exact hmem (Statement.name_mem_altered hmention halters)
  · intro session expr
    exact ⟨rfl, expr.names_evaluate session.environment⟩

/-- In `{ var b = a; a = b + "!"; print a; -a; }` an outer variable gets another value and is
printed before a fault. The variables that the block does not name are different ones, and so
is what was written before. -/
theorem run_touches_named_variables_in_block :
    let plus : Token := ⟨.symbol .plus, "+", none, ⟨1, 20⟩⟩
    let minus : Token := ⟨.symbol .minus, "-", none, ⟨1, 36⟩⟩
    let program : List Statement :=
      [.block [.declare (.named "b" 7) (some (.read (.named "a" 11))),
        .expression (.assign (.named "a" 14)
          (.binary .add plus (.read (.named "b" 18)) (.literal (.string "!")))),
        .print (.read (.named "a" 33)),
        .expression (.unary .negate minus (.read (.named "a" 37)))]]
    let session : Session :=
      ⟨Environment.withScope {} 0 [("c", .bool true), ("a", .string "s")], { written := [0x3E] }⟩
    let session' : Session := ⟨Environment.withScope {} 0 [("a", .string "s"), ("d", .nil)], {}⟩
    let run := Statement.executeAll program session
    let run' := Statement.executeAll program session'
    session.environment.AgreeOn (Statement.named program) session'.environment ∧
    Sink.Reliable session.sink ∧ Sink.Reliable session'.sink ∧
    run.2.sink.written = [0x3E, 0x73, 0x21, 0x0A] ∧ run'.2.sink.written = [0x73, 0x21, 0x0A] ∧
    run.1 = run'.1 ∧ run'.1 = .error (.operandNotNumber minus) ∧
    run.2.environment.valuesOf "a" = run'.2.environment.valuesOf "a" ∧
    session.environment.valuesOf "c" = run.2.environment.valuesOf "c" := by
  intro plus minus program session session' run run'
  have henv : session.environment.AgreeOn (Statement.named program) session'.environment :=
    ⟨rfl, by decide +kernel⟩
  have hsink : Sink.Reliable session.sink := Buffer.reliable rfl
  have hsink' : Sink.Reliable session'.sink := Buffer.reliable rfl
  obtain ⟨hsame, hleaves, -⟩ := @run_touches_named_variables program Buffer Buffer _ _
  obtain ⟨-, houtcome, hafter⟩ := hsame session session' henv hsink hsink'
  have hnamed : "a" ∈ Statement.named program := by decide +kernel
  have hkept : "c" ∉ Statement.altered program := by decide +kernel
  exact ⟨henv, hsink, hsink', by decide +kernel, by decide +kernel, houtcome, by decide +kernel,
    hafter.values "a" hnamed, (hleaves session).values "c" hkept⟩

end Scriptlet
