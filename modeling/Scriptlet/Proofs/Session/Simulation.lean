import Mathlib.Data.List.Forall2
import Scriptlet.Proofs.Environment.Views
import Scriptlet.Proofs.Program.Map
import Scriptlet.Proofs.Session.Output

/-!
Runs of programs of one shape go side by side.

Two programs of one shape differ in tokens and literals. If values and variables of
two runs can be related in a way that the operators and the operations on variables
keep, then the runs stay related to their ends: they print related lines, and both
succeed or both end with the fault of the same kind at corresponding tokens.

* `Agree`: outcomes that are related.
* `Simulation`: relations that all steps of a run keep.
* `Simulation.evaluate`, `Simulation.execute`: related runs of expressions, and of
  statements with the record of their lines.
* `view_simulation`: a view that the operators respect is kept by runs.
* `Simulation.moved`, `Simulation.record_moved`: a program runs in the same way at other
  positions.
-/

namespace Scriptlet

/-! ### Related outcomes -/

/-- Both outcomes are results that are related, or both are the same fault, at a token
and at the token in its place. -/
inductive Agree {α β : Type} (f : Token → Token) (r : α → β → Prop) :
    Except Fault α → Except Fault β → Prop where
  | ok {a : α} {b : β} (h : r a b) : Agree f r (.ok a) (.ok b)
  | error (fault : Fault) : Agree f r (.error fault) (.error (fault.map f))

/-- The outcomes of two runs are related, and so are the states they have left. -/
def Beside {α β σ τ : Type} (f : Token → Token) (r : α → β → Prop) (S : σ → τ → Prop)
    (run : Except Fault α × σ) (run' : Except Fault β × τ) : Prop :=
  Agree f r run.1 run'.1 ∧ S run.2 run'.2

/-- Runs that go on side by side after their first parts have done so. -/
lemma Beside.andThen {α β γ δ σ τ : Type} {f : Token → Token} {r : α → β → Prop}
    {r' : γ → δ → Prop} {S : σ → τ → Prop} {run : Except Fault α × σ}
    {run' : Except Fault β × τ} {next : α → σ → Except Fault γ × σ}
    {next' : β → τ → Except Fault δ × τ} (h : Beside f r S run run')
    (hnext : ∀ {a b s t}, r a b → S s t → Beside f r' S (next a s) (next' b t)) :
    Beside f r' S (andThen run next) (andThen run' next') := by
  obtain ⟨outcome, s⟩ := run
  obtain ⟨outcome', t⟩ := run'
  obtain ⟨houtcome, hstate⟩ := h
  cases houtcome with
  | ok hresult => exact hnext hresult hstate
  | error fault => exact ⟨.error fault, hstate⟩

/-- Relations between the values and between the variables of two runs, where the
second program has other tokens and literals, that every step of a run keeps. -/
structure Simulation (f : Token → Token) (g : Value → Value) (V : Value → Value → Prop)
    (E : Environment → Environment → Prop) : Prop where
  literal : ∀ value, V value (g value)
  nil : V .nil .nil
  unary : ∀ (op : UnaryOp) operator {value value'}, V value value' →
    Agree f V (op.apply operator value) (op.apply (f operator) value')
  binary : ∀ (op : BinaryOp) operator {left left' right right'}, V left left' → V right right' →
    Agree f V (op.apply operator left right) (op.apply (f operator) left' right')
  get : ∀ {env env'} name, E env env' → Agree f V (env.get name) (env'.get (f name))
  assign : ∀ {env env'} name {value value'}, E env env' → V value value' →
    Agree f E (env.assign name value) (env'.assign (f name) value')
  define : ∀ {env env'} name {value value'}, E env env' → V value value' →
    Agree f E (env.define name value) (env'.define (f name) value')
  push : ∀ {env env'}, E env env' → E env.push env'.push
  pop : ∀ {env env'}, E env env' → E env.pop env'.pop

namespace Simulation

variable {f : Token → Token} {g : Value → Value} {V : Value → Value → Prop}
  {E : Environment → Environment → Prop}

/-! ### Expressions -/

/-- **Expressions of one shape are evaluated side by side.** -/
theorem evaluate (sim : Simulation f g V E) (expr : Expr) {env env' : Environment}
    (h : E env env') : Beside f V E (expr.evaluate env) ((expr.map f g).evaluate env') := by
  induction expr generalizing env env' with
  | literal value => exact ⟨.ok (sim.literal value), h⟩
  | grouping inner ih => exact ih h
  | unary op operator operand ih =>
      rw [Expr.map, Expr.evaluate_unary, Expr.evaluate_unary]
      refine (ih h).andThen ?_
      intro value value' after after' hvalue henv
      exact ⟨sim.unary op operator hvalue, henv⟩
  | binary op operator left right ihleft ihright =>
      rw [Expr.map, Expr.evaluate_binary, Expr.evaluate_binary]
      refine (ihleft h).andThen ?_
      intro leftValue leftValue' between between' hleft henv
      refine (ihright henv).andThen ?_
      intro rightValue rightValue' after after' hright henv
      exact ⟨sim.binary op operator hleft hright, henv⟩
  | read name => exact ⟨sim.get name h, h⟩
  | assign name value ih =>
      rw [Expr.map, Expr.evaluate_assign, Expr.evaluate_assign]
      refine (ih h).andThen ?_
      intro result result' between between' hresult henv
      have hassign := sim.assign name henv hresult
      generalize between.assign name result = assigned at hassign ⊢
      generalize between'.assign (f name) result' = assigned' at hassign ⊢
      cases hassign with
      | ok hafter => exact ⟨.ok hresult, hafter⟩
      | error fault => exact ⟨.error fault, henv⟩

/-! ### Statements -/

/-- The variables are related, and the lines recorded are those of related values. -/
structure Related (V : Value → Value → Prop) (E : Environment → Environment → Prop)
    (session session' : Session Log) : Prop where
  environment : E session.environment session'.environment
  lines : List.Forall₂ (fun line line' => ∃ value value', V value value' ∧
    line = utf8 (value.text ++ "\n") ∧ line' = utf8 (value'.text ++ "\n"))
    session.sink.lines session'.sink.lines

variable {session session' : Session Log}

/-- Equal values are printed in the same way. -/
lemma Related.lines_eq (h : Related Eq E session session') :
    session.sink.lines = session'.sink.lines := by
  have hlines : List.Forall₂ Eq session.sink.lines session'.sink.lines := by
    refine h.lines.imp ?_
    rintro line line' ⟨value, _, rfl, rfl, rfl⟩
    rfl
  rwa [List.forall₂_eq_eq_eq] at hlines

lemma evaluate_session (sim : Simulation f g V E) (expr : Expr)
    (h : Related V E session session') :
    Beside f V (Related V E) (session.evaluate expr) (session'.evaluate (expr.map f g)) := by
  obtain ⟨houtcome, henv⟩ := sim.evaluate expr h.environment
  exact ⟨houtcome, henv, h.lines⟩

/-- Related values are printed as related lines. -/
lemma Related.print (h : Related V E session session') {value value' : Value}
    (hvalue : V value value') :
    Beside f Eq (Related V E) (session.print value.text) (session'.print value'.text) := by
  refine ⟨.ok rfl, h.environment, ?_⟩
  exact List.rel_append h.lines (.cons ⟨value, value', hvalue, rfl, rfl⟩ .nil)

lemma define_session (sim : Simulation f g V E) (name : Token) {value value' : Value}
    (hvalue : V value value') (h : Related V E session session') :
    Beside f Eq (Related V E) (session.define name value) (session'.define (f name) value') := by
  have hdefine := sim.define name h.environment hvalue
  rw [Session.define, Session.define]
  generalize session.environment.define name value = defined at hdefine ⊢
  generalize session'.environment.define (f name) value' = defined' at hdefine ⊢
  cases hdefine with
  | ok hafter => exact ⟨.ok rfl, hafter, h.lines⟩
  | error fault => exact ⟨.error fault, h⟩

/-- **Statements of one shape are run side by side.** -/
theorem execute (sim : Simulation f g V E) :
    (∀ (statement : Statement) {session session' : Session Log}, Related V E session session' →
      Beside f Eq (Related V E) (statement.execute session)
        ((statement.map f g).execute session')) ∧
    ∀ (statements : List Statement) {session session' : Session Log},
      Related V E session session' →
      Beside f Eq (Related V E) (Statement.executeAll statements session)
        (Statement.executeAll (Statement.mapAll f g statements) session') := by
  refine Statement.induction ?expression ?print ?declare ?block ?nil ?cons
  case expression =>
      intro expr session session' h
      rw [Statement.map, Statement.execute_expression, Statement.execute_expression]
      refine (sim.evaluate_session expr h).andThen ?_
      intro value value' after after' _ hafter
      exact ⟨.ok rfl, hafter⟩
  case print =>
      intro expr session session' h
      rw [Statement.map, Statement.execute_print, Statement.execute_print]
      refine (sim.evaluate_session expr h).andThen ?_
      intro value value' after after' hvalue hafter
      exact hafter.print hvalue
  case declare =>
      intro name initial session session' h
      cases initial with
      | none => exact sim.define_session name sim.nil h
      | some initial =>
          rw [Statement.map, Option.map_some, Statement.execute_declare,
            Statement.execute_declare]
          refine (sim.evaluate_session initial h).andThen ?_
          intro value value' after after' hvalue hafter
          exact sim.define_session name hvalue hafter
  case block =>
      intro body ih session session' h
      have henter : Related V E session.enter session'.enter :=
        ⟨sim.push h.environment, h.lines⟩
      obtain ⟨houtcome, henv, hlines⟩ := ih henter
      exact ⟨houtcome, sim.pop henv, hlines⟩
  case nil =>
      intro session session' h
      exact ⟨.ok rfl, h⟩
  case cons =>
      intro first rest ihfirst ihrest session session' h
      rw [Statement.mapAll, Statement.executeAll_cons, Statement.executeAll_cons]
      refine (ihfirst h).andThen ?_
      intro done done' between between' _ hbetween
      exact ihrest hbetween

/-- The records of programs of one shape stand side by side. -/
theorem record (sim : Simulation f g V E) (program : List Statement) {env env' : Environment}
    (h : E env env') :
    Beside f Eq (Related V E) (Session.record env program)
      (Session.record env' (Statement.mapAll f g program)) :=
  sim.execute.2 program ⟨h, .nil⟩

end Simulation

/-! ### Views -/

lemma Fault.map_id (fault : Fault) : fault.map id = fault := by
  cases fault <;> rfl

/-- Outcomes agree on a view of their results exactly if the views are the same. -/
lemma agree_iff {α β γ : Type} {view : α → γ} {view' : β → γ} {outcome : Except Fault α}
    {outcome' : Except Fault β} :
    Agree id (fun a b => view a = view' b) outcome outcome' ↔
      outcome.map view = outcome'.map view' := by
  constructor
  · rintro (h | fault)
    · exact congrArg Except.ok h
    · rw [Fault.map_id]
      rfl
  · intro h
    cases outcome with
    | ok a =>
        cases outcome' with
        | ok b => exact .ok (Except.ok.inj h)
        | error fault => cases h
    | error fault =>
        cases outcome' with
        | ok b => cases h
        | error fault' =>
            cases h
            simpa only [Fault.map_id] using
              Agree.error (f := id) (r := fun a b => view a = view' b) fault

/-- **A view that the operators respect is kept by runs.** If literals look the same through
the view, and operators give results that look the same for operands that do, then runs from
variables that look the same go side by side. -/
theorem view_simulation {γ : Type} {view : Value → γ} {g : Value → Value}
    (literal : ∀ value, view value = view (g value))
    (unary : ∀ (op : UnaryOp) (operator : Token) {value value' : Value},
      view value = view value' →
      (op.apply operator value).map view = (op.apply operator value').map view)
    (binary : ∀ (op : BinaryOp) (operator : Token) {left left' right right' : Value},
      view left = view left' → view right = view right' →
      (op.apply operator left right).map view = (op.apply operator left' right').map view) :
    Simulation id g (fun value value' => view value = view value')
      fun env env' => env.seen view = env'.seen view where
  literal := literal
  nil := rfl
  unary op operator _ _ h := agree_iff.2 (unary op operator h)
  binary op operator _ _ _ _ hleft hright := agree_iff.2 (binary op operator hleft hright)
  get name h := agree_iff.2 (Environment.map_get h name)
  assign name _ _ h hvalue := agree_iff.2 (Environment.map_assign h name hvalue)
  define name _ _ h hvalue := agree_iff.2 (Environment.map_define h name hvalue)
  push := Environment.seen_push
  pop := Environment.seen_pop

/-! ### Other positions -/

section

variable (f : Token → Token) (operator : Token)

lemma UnaryOp.agree_apply (op : UnaryOp) (value : Value) :
    Agree f Eq (op.apply operator value) (op.apply (f operator) value) := by
  cases op with
  | not => exact .ok rfl
  | negate =>
      cases value with
      | number x => exact .ok rfl
      | nil | bool _ | string _ => exact .error (.operandNotNumber operator)

lemma Value.agree_add (left right : Value) :
    Agree f Eq (left.add operator right) (left.add (f operator) right) := by
  rw [add.eq_def, add.eq_def]
  split
  case h_5 => exact .error (.operandsNotNumbersOrStrings operator)
  all_goals exact .ok rfl

lemma Value.agree_onNumbers (operation : Float → Float → Value) (left right : Value) :
    Agree f Eq (onNumbers operator operation left right)
      (onNumbers (f operator) operation left right) := by
  rw [onNumbers.eq_def, onNumbers.eq_def]
  split
  · exact .ok rfl
  · exact .error (.operandsNotNumbers operator)

lemma BinaryOp.agree_apply (op : BinaryOp) (left right : Value) :
    Agree f Eq (op.apply operator left right) (op.apply (f operator) left right) := by
  cases op with
  | add => exact Value.agree_add f operator left right
  | equal | notEqual => exact .ok rfl
  | sub | mul | div | less | greater | lessEqual | greaterEqual =>
      exact Value.agree_onNumbers f operator _ left right

end

namespace Environment

variable (move : Position → Position) (env : Environment) (name : Token) (value : Value)

lemma agree_get : Agree (Token.moved move) Eq (env.get name) (env.get (name.moved move)) := by
  rw [get, get, Token.lexeme_moved]
  split
  · exact .ok rfl
  · exact .error (.undefinedVariable name)

lemma agree_assign :
    Agree (Token.moved move) Eq (env.assign name value) (env.assign (name.moved move) value) := by
  rw [assign, assign, Token.lexeme_moved]
  split
  · exact .ok rfl
  · exact .error (.undefinedVariable name)

lemma agree_define :
    Agree (Token.moved move) Eq (env.define name value) (env.define (name.moved move) value) := by
  rw [define_eq, define_eq, Token.lexeme_moved]
  split
  · exact .error (.alreadyDefined name)
  · exact .ok rfl

end Environment

/-- Outcomes that agree do so when a token is replaced by one that makes no difference. -/
lemma Agree.trans {α β : Type} {f : Token → Token} {r : α → β → Prop} {first : Except Fault α}
    {second third : Except Fault β} (h : Agree id r first second) (h' : Agree f Eq second third) :
    Agree f r first third := by
  cases h with
  | ok h =>
      cases h' with
      | ok heq => exact .ok (heq ▸ h)
  | error fault =>
      rw [Fault.map_id] at h'
      cases h'
      exact .error fault

/-- **No step of a run looks at positions**, so runs that go side by side do so at other
positions, too. -/
theorem Simulation.moved {g : Value → Value} {V : Value → Value → Prop}
    {E : Environment → Environment → Prop} (sim : Simulation id g V E)
    (move : Position → Position) : Simulation (Token.moved move) g V E where
  literal := sim.literal
  nil := sim.nil
  unary op operator _ value' h := (sim.unary op operator h).trans (op.agree_apply _ operator value')
  binary op operator _ left' _ right' hleft hright :=
    (sim.binary op operator hleft hright).trans (op.agree_apply _ operator left' right')
  get name h := (sim.get name h).trans (Environment.agree_get move _ name)
  assign name _ value' h hvalue :=
    (sim.assign name h hvalue).trans (Environment.agree_assign move _ name value')
  define name _ value' h hvalue :=
    (sim.define name h hvalue).trans (Environment.agree_define move _ name value')
  push := sim.push
  pop := sim.pop

lemma agree_self {α : Type} (outcome : Except Fault α) : Agree id Eq outcome outcome := by
  cases outcome with
  | ok result => exact .ok rfl
  | error fault => simpa only [Fault.map_id] using Agree.error (f := id) (r := Eq) fault

/-- A run goes beside itself. -/
theorem equal_simulation : Simulation id id Eq Eq where
  literal _ := rfl
  nil := rfl
  unary := by
    rintro op operator value _ rfl
    exact agree_self _
  binary := by
    rintro op operator left _ right _ rfl rfl
    exact agree_self _
  get := by
    rintro env _ name rfl
    exact agree_self _
  assign := by
    rintro env _ name value _ rfl rfl
    exact agree_self _
  define := by
    rintro env _ name value _ rfl rfl
    exact agree_self _
  push := congrArg Environment.push
  pop := congrArg Environment.pop

/-- **A program at other positions does the same**, and its fault is reported there. -/
theorem Simulation.record_moved {E : Environment → Environment → Prop}
    (sim : Simulation id id Eq E) {move : Position → Position} {place : Diagnostic → Diagnostic}
    (hplace : ∀ fault : Fault,
      (fault.map (Token.moved move)).diagnostic = place fault.diagnostic)
    {env env' : Environment} (h : E env env') (program : List Statement) :
    let run := Session.record env program
    let run' := Session.record env' (program.map (Statement.moved move))
    Report.ofOutcome run'.1 = (Report.ofOutcome run.1).map place ∧
      E run.2.environment run'.2.environment ∧
      Session.output env' (program.map (Statement.moved move)) = Session.output env program := by
  intro run run'
  obtain ⟨houtcome, hafter⟩ := (sim.moved move).record program h
  rw [Statement.mapAll_eq_map] at houtcome hafter
  refine ⟨?_, hafter.environment, congrArg List.flatten hafter.lines_eq.symm⟩
  change Agree _ _ run.1 run'.1 at houtcome
  generalize run.1 = outcome at houtcome ⊢
  generalize run'.1 = outcome' at houtcome ⊢
  cases houtcome with
  | ok => rfl
  | error fault =>
      rw [Report.ofOutcome, Report.ofOutcome, hplace]
      rfl

end Scriptlet
