import Mathlib.Data.Finset.Lattice.Lemmas
import Scriptlet.Proofs.Environment.Scopes
import Scriptlet.Session.Run

/-!
Scopes are restored, whatever happens.

Running a statement may fail in an expression, at a declaration or in the output,
at any depth of nested blocks. In every case the scopes afterwards are those
before, with the same links and the same names; only a declaration that succeeds
adds its name to the current scope.

* `Statement.induction`: induction over statements and lists of them.
* `Expr.names_evaluate`: an expression changes no name.
* `Statement.names_execute`: what a statement does to the names.
* `Session.Call`: the ways to use a session.
* `scopes_restored`: the frames after a statement, after a block, and after any
  use of a session.
-/

namespace Scriptlet

variable {W : Type}

/-! ### Names after a run -/

/-- What statements inherit from the bodies of their blocks, and lists from their
members, holds of all statements and lists. -/
theorem Statement.induction {P : Statement → Prop} {Q : List Statement → Prop}
    (expression : ∀ expr, P (.expression expr)) (print : ∀ expr, P (.print expr))
    (declare : ∀ name initial, P (.declare name initial))
    (block : ∀ body, Q body → P (.block body)) (nil : Q [])
    (cons : ∀ first rest, P first → Q rest → Q (first :: rest)) :
    (∀ statement, P statement) ∧ ∀ statements, Q statements := by
  have members := @Statement.rec P Q expression print declare block nil cons
  refine ⟨members, ?_⟩
  intro statements
  induction statements with
  | nil => exact nil
  | cons first rest ih => exact cons first rest (members first) ih

/-- An expression changes no name, also if it fails. -/
theorem Expr.names_evaluate (expr : Expr) (env : Environment) :
    (expr.evaluate env).2.names = env.names := by
  induction expr generalizing env with
  | literal value => rfl
  | grouping inner ih => exact ih env
  | unary op operator operand ih =>
      have hoperand := ih env
      rcases heq : operand.evaluate env with ⟨fault | value, after⟩ <;>
        simpa only [evaluate, heq] using hoperand
  | binary op operator left right ihleft ihright =>
      have hleft := ihleft env
      rcases heq : left.evaluate env with ⟨fault | leftValue, between⟩
      · simpa only [evaluate, heq] using hleft
      · rw [heq] at hleft
        have hright := (ihright between).trans hleft
        rcases heq' : right.evaluate between with ⟨fault | rightValue, after⟩ <;>
          simpa only [evaluate, heq, heq'] using hright
  | read name => rfl
  | assign name value ih =>
      have hvalue := ih env
      rcases heq : value.evaluate env with ⟨fault | result, between⟩
      · simpa only [evaluate, heq] using hvalue
      · rw [heq] at hvalue
        simp only [evaluate, heq]
        split
        · exact hvalue
        · rename_i after hassign
          exact (between.names_of_assign hassign).trans hvalue

namespace Statement

/-- The name that a statement has declared: none, unless it is a declaration and
has succeeded. -/
def declared : Statement → Except Fault Unit → Finset String
  | .declare name _, .ok _ => {name.lexeme}
  | _, _ => ∅

/-- Statements one after another only add names to the current scope. -/
def AddsNames (before after : List (Finset String)) : Prop :=
  ∃ inner, before.headD ∅ ⊆ inner ∧ after = inner :: before.tail

lemma AddsNames.trans {names names' names'' : List (Finset String)} (h : AddsNames names names')
    (h' : AddsNames names' names'') : AddsNames names names'' := by
  obtain ⟨inner, hinner, rfl⟩ := h
  obtain ⟨inner', hinner', rfl⟩ := h'
  exact ⟨inner', hinner.trans hinner', rfl⟩

/-- The names before and after a statement. -/
def NamesAfter (statement : Statement) (before : Session W) (outcome : Except Fault Unit)
    (after : Session W) : Prop :=
  after.environment.names =
    (statement.declared outcome ∪ before.environment.names.headD ∅) ::
      before.environment.names.tail

lemma namesAfter_of_eq {statement : Statement} {before after : Session W}
    {outcome : Except Fault Unit} (h : statement.declared outcome = ∅)
    (hnames : after.environment.names = before.environment.names) :
    statement.NamesAfter before outcome after := by
  rw [NamesAfter, h, Finset.empty_union, hnames]
  exact before.environment.names_eq_cons

lemma namesAfter_define {before between : Session W} (name : Token) (initial : Option Expr)
    (value : Value) (hnames : between.environment.names = before.environment.names) :
    NamesAfter (.declare name initial) before (between.define name value).1
      (between.define name value).2 := by
  rw [Session.define]
  split
  case h_1 after hdefine =>
      rw [NamesAfter, between.environment.names_of_define hdefine, hnames]
      rfl
  case h_2 => exact namesAfter_of_eq rfl hnames

variable [Sink W]

/-- **Names after a run.** A statement leaves the names in all scopes as they are,
apart from the one that it declares, and statements one after another only add
names to the current scope. -/
theorem names_execute :
    (∀ (statement : Statement) (session : Session W),
      statement.NamesAfter session (statement.execute session).1 (statement.execute session).2) ∧
    ∀ (statements : List Statement) (session : Session W),
      AddsNames session.environment.names (executeAll statements session).2.environment.names := by
  refine Statement.induction ?expression ?print ?declare ?block ?nil ?cons
  case expression =>
      intro expr session
      apply namesAfter_of_eq rfl
      have hexpr := expr.names_evaluate session.environment
      rcases heq : expr.evaluate session.environment with ⟨fault | value, after⟩ <;>
        simpa only [execute, Session.evaluate, heq] using hexpr
  case print =>
      intro expr session
      apply namesAfter_of_eq rfl
      have hexpr := expr.names_evaluate session.environment
      rcases heq : expr.evaluate session.environment with ⟨fault | value, after⟩ <;>
        simpa only [execute, Session.evaluate, Session.print, heq] using hexpr
  case declare =>
      intro name initial session
      cases initial with
      | none => exact namesAfter_define name none .nil rfl
      | some initial =>
          have hinitial := initial.names_evaluate session.environment
          rcases heq : initial.evaluate session.environment with ⟨fault | value, after⟩
          · apply namesAfter_of_eq
            · simp only [execute, Session.evaluate, heq, declared]
            · simpa only [execute, Session.evaluate, heq] using hinitial
          · rw [heq] at hinitial
            simp only [execute, Session.evaluate, heq]
            exact namesAfter_define name (some initial) value hinitial
  case block =>
      intro body ih session
      apply namesAfter_of_eq rfl
      obtain ⟨inner, -, hbody⟩ := ih session.enter
      rw [Session.enter, Environment.names_push] at hbody
      exact Environment.names_pop_of_cons _ hbody session.environment.names_ne_nil
  case nil =>
      intro session
      exact ⟨_, subset_rfl, session.environment.names_eq_cons⟩
  case cons =>
      intro first rest ihfirst ihrest session
      have hfirst : AddsNames session.environment.names
          (first.execute session).2.environment.names :=
        ⟨_, Finset.subset_union_right, ihfirst session⟩
      rcases heq : first.execute session with ⟨fault | done, between⟩
      · simpa only [executeAll, heq] using hfirst
      · rw [heq] at hfirst
        simpa only [executeAll, heq] using hfirst.trans (ihrest between)

end Statement

/-! ### Frames after a run -/

namespace Environment

/-- The names in the scope of this number. -/
def namesIn (env : Environment) (id : Nat) : Finset String :=
  (env.frames[id]?.map (·.scope.names)).getD ∅

/-- There are as many frames, with the same links, and the same one is current. -/
structure SameFrames (before after : Environment) : Prop where
  size : after.frames.size = before.frames.size
  current : after.current = before.current
  links : after.frames.map (·.enclosing) = before.frames.map (·.enclosing)

variable {env before after : Environment}

/-- The number of scopes decides all but their content. -/
lemma sameFrames_of_length (h : after.names.length = before.names.length) :
    SameFrames before after := by
  have hcurrent : after.current = before.current := by
    rw [length_names, length_names] at h
    omega
  refine ⟨?_, hcurrent, ?_⟩
  · rw [← after.linked.current_last, ← before.linked.current_last, hcurrent]
  · apply Array.toList_inj.1
    rw [Array.toList_map, Array.toList_map, map_enclosing, map_enclosing, hcurrent]

/-- The names in the current scope and in the scopes around it. -/
lemma namesIn_of_cons {inner : Finset String} {outer : List (Finset String)}
    (h : env.names = inner :: outer) (id : Nat) :
    env.namesIn id = if id = env.current then inner else outer.reverse[id]?.getD ∅ := by
  have hlength := env.length_names
  rw [h, List.length_cons] at hlength
  have hnames : env.namesIn id = env.names.reverse[id]?.getD ∅ := by
    simp [namesIn, names, scopes, Function.comp_def]
  rw [hnames, h, List.reverse_cons, List.getElem?_append, List.length_reverse]
  by_cases hid : id = env.current
  · rw [if_pos hid, if_neg (by omega), hid, List.getElem?_singleton, if_pos (by omega)]
    rfl
  · rw [if_neg hid]
    split
    · rfl
    · rw [List.getElem?_singleton, if_neg (by omega), List.getElem?_eq_none]
      rw [List.length_reverse]
      omega

lemma sameFrames_of_addsNames (h : Statement.AddsNames before.names after.names) :
    SameFrames before after := by
  obtain ⟨inner, -, hnames⟩ := h
  apply sameFrames_of_length
  rw [hnames, before.names_eq_cons]
  rfl

/-- The scopes keep their names when more are added to the current one. -/
lemma namesIn_subset (h : Statement.AddsNames before.names after.names) (id : Nat) :
    before.namesIn id ⊆ after.namesIn id := by
  have hcurrent := (sameFrames_of_addsNames h).current
  obtain ⟨inner, hinner, hnames⟩ := h
  rw [namesIn_of_cons before.names_eq_cons, namesIn_of_cons hnames, hcurrent]
  split
  · exact hinner
  · exact subset_rfl

end Environment

/-! ### Uses of a session -/

variable [Sink W]

namespace Session

/-- A use of a session. -/
inductive Call where
  | run (source : String)
  | interpret (program : List Statement)
  | execute (statement : Statement)
  | executeBlock (body : List Statement)

/-- The session after a use of it, whether it succeeded or not. -/
def call (session : Session W) : Call → Session W
  | .run source => (session.run source).2
  | .interpret program => (session.interpret program).2
  | .execute statement => (session.execute statement).2
  | .executeBlock body => (session.executeBlock body).2

/-- The session after one use after another. -/
def callAll (session : Session W) (calls : List Call) : Session W := calls.foldl call session

lemma names_execute (session : Session W) (statement : Statement) :
    (session.execute statement).2.environment.names =
      (statement.declared (session.execute statement).1 ∪ session.environment.names.headD ∅) ::
        session.environment.names.tail :=
  Statement.names_execute.1 statement session

lemma addsNames_execute (session : Session W) (statement : Statement) :
    Statement.AddsNames session.environment.names
      (session.execute statement).2.environment.names :=
  ⟨_, Finset.subset_union_right, session.names_execute statement⟩

/-- Passing on the output at the end of a program does not touch the variables. -/
lemma environment_interpret (session : Session W) (program : List Statement) :
    (session.interpret program).2.environment =
      (Statement.executeAll program session).2.environment := by
  rw [interpret]
  dsimp only
  split <;> rfl

lemma addsNames_interpret (session : Session W) (program : List Statement) :
    Statement.AddsNames session.environment.names
      (session.interpret program).2.environment.names := by
  rw [environment_interpret]
  exact Statement.names_execute.2 program session

lemma addsNames_call (session : Session W) (c : Call) :
    Statement.AddsNames session.environment.names (session.call c).environment.names := by
  cases c with
  | run source =>
      rw [call, run, runFlagged]
      split
      · exact ⟨_, subset_rfl, session.environment.names_eq_cons⟩
      · exact session.addsNames_interpret _
  | interpret program => exact session.addsNames_interpret program
  | execute statement => exact session.addsNames_execute statement
  | executeBlock body => exact session.addsNames_execute (.block body)

lemma addsNames_callAll (session : Session W) (calls : List Call) :
    Statement.AddsNames session.environment.names (session.callAll calls).environment.names := by
  induction calls generalizing session with
  | nil => exact ⟨_, subset_rfl, session.environment.names_eq_cons⟩
  | cons c calls ih => exact (session.addsNames_call c).trans (ih (session.call c))

end Session

/-- **Scopes are always restored.** After a statement, whether it succeeds or
fails, there are as many frames as before, with the same links and the same one
current; every frame has the names that it had, and the current one also the
declared name if the statement is a declaration that succeeds. A block leaves the
names in every frame as they are. So after any uses of a new session only the
global scope is open, and further uses only add to its names. -/
theorem scopes_restored :
    (∀ (session : Session W) (statement : Statement),
      session.environment.SameFrames (session.execute statement).2.environment ∧
      ∀ id, (session.execute statement).2.environment.namesIn id =
        if id = session.environment.current then
          statement.declared (session.execute statement).1 ∪ session.environment.namesIn id
        else session.environment.namesIn id) ∧
    (∀ (session : Session W) (body : List Statement),
      session.environment.SameFrames (session.executeBlock body).2.environment ∧
      ∀ id, (session.executeBlock body).2.environment.namesIn id =
        session.environment.namesIn id) ∧
    ∀ (sink : W) (calls more : List Session.Call),
      (Session.callAll ⟨{}, sink⟩ calls).environment.depth = 1 ∧
      (Session.callAll ⟨{}, sink⟩ calls).environment.namesIn 0 ⊆
        (Session.callAll ⟨{}, sink⟩ (calls ++ more)).environment.namesIn 0 := by
  have execute : ∀ (session : Session W) (statement : Statement),
      session.environment.SameFrames (session.execute statement).2.environment ∧
      ∀ id, (session.execute statement).2.environment.namesIn id =
        if id = session.environment.current then
          statement.declared (session.execute statement).1 ∪ session.environment.namesIn id
        else session.environment.namesIn id := by
    intro session statement
    have hframes := Environment.sameFrames_of_addsNames (session.addsNames_execute statement)
    refine ⟨hframes, ?_⟩
    intro id
    rw [Environment.namesIn_of_cons (session.names_execute statement), hframes.current,
      Environment.namesIn_of_cons session.environment.names_eq_cons]
    split <;> rfl
  refine ⟨execute, ?_, ?_⟩
  · intro session body
    obtain ⟨hframes, hnames⟩ := execute session (.block body)
    refine ⟨hframes, ?_⟩
    intro id
    -- a block declares nothing where it stands
    have hdeclared : ∀ outcome, Statement.declared (.block body) outcome = ∅ := fun _ => rfl
    rw [Session.executeBlock, hnames id, hdeclared, Finset.empty_union, ite_self]
  · intro sink calls more
    have hcalls := Session.addsNames_callAll ⟨{}, sink⟩ calls
    have hmore := Session.addsNames_callAll (Session.callAll ⟨{}, sink⟩ calls) more
    refine ⟨(Environment.sameFrames_of_addsNames hcalls).size, ?_⟩
    rw [Session.callAll, Session.callAll, List.foldl_append]
    exact Environment.namesIn_subset hmore 0

end Scriptlet
