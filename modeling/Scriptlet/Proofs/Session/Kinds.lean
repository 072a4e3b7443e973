import Scriptlet.Proofs.Session.Simulation

/-!
Faults depend on kinds.

Whether a run fails, and where, is decided by the kinds of the values in it: no
operator and no use of a variable looks further before it fails. So a program can be
run with its literals replaced by the plainest ones of their kinds, and all that is
lost is what the values are.

* `Value.plain`, `Expr.plain`, `Statement.plainAll`: literals replaced in this way.
* `Environment.kinds`: the kinds of the variables in each scope.
* `kinds_simulation`: runs of a program and of the plain one go side by side.
* `faults_depend_on_kinds`: programs that differ in literals of the same kinds fail alike.
-/

namespace Scriptlet

/-! ### Plain literals -/

/-- The plainest value of a kind. -/
def Value.plain : Value → Value
  | nil => nil
  | bool _ => bool false
  | number _ => number 0
  | string _ => string ""

/-- The expression with plain literals. -/
def Expr.plain (expr : Expr) : Expr := expr.map id Value.plain

/-- The statements with plain literals. -/
def Statement.plainAll (program : List Statement) : List Statement :=
  Statement.mapAll id Value.plain program

lemma Value.kind_plain (value : Value) : value.plain.kind = value.kind := by
  cases value <;> rfl

/-! ### Operators -/

namespace Value

variable {left left' right right' : Value}

lemma map_kind_add (operator : Token) (hleft : left.kind = left'.kind)
    (hright : right.kind = right'.kind) :
    (left.add operator right).map kind = (left'.add operator right').map kind := by
  cases left <;> cases left' <;> cases hleft <;> cases right <;> cases right' <;> cases hright <;>
    simp only [add, Except.map, kind]

/-- An operation on numbers whose results are all of one kind. -/
lemma map_kind_onNumbers (operator : Token) {f : Float → Float → Value} {result : Kind}
    (hf : ∀ x y, (f x y).kind = result) (hleft : left.kind = left'.kind)
    (hright : right.kind = right'.kind) :
    (onNumbers operator f left right).map kind = (onNumbers operator f left' right').map kind := by
  cases left <;> cases left' <;> cases hleft <;> cases right <;> cases right' <;> cases hright <;>
    simp only [onNumbers, Except.map, hf]

end Value

lemma UnaryOp.map_kind_apply (op : UnaryOp) (operator : Token) {value value' : Value}
    (h : value.kind = value'.kind) :
    (op.apply operator value).map Value.kind = (op.apply operator value').map Value.kind := by
  cases op with
  | negate =>
      cases value <;> cases value' <;> cases h <;> simp only [apply, Except.map, Value.kind]
  | not => rfl

lemma BinaryOp.map_kind_apply (op : BinaryOp) (operator : Token)
    {left left' right right' : Value} (hleft : left.kind = left'.kind)
    (hright : right.kind = right'.kind) :
    (op.apply operator left right).map Value.kind =
      (op.apply operator left' right').map Value.kind := by
  cases op with
  | add => exact Value.map_kind_add operator hleft hright
  | equal | notEqual => rfl
  | sub | mul | div | less | greater | lessEqual | greaterEqual =>
      exact Value.map_kind_onNumbers operator (fun _ _ => rfl) hleft hright

/-! ### Variables -/

/-- The kinds of the variables of a scope. -/
def Scope.kinds (s : Scope) (name : String) : Option Value.Kind := (s.get? name).map Value.kind

lemma Scope.kinds_cons (name : String) (value : Value) (s : Scope) :
    kinds ((name, value) :: s) = Function.update s.kinds name (some value.kind) :=
  seen_cons Value.kind name value s

namespace Environment

variable {env env' : Environment}

/-- The kinds of the variables in each scope, from the current one outward. -/
def kinds (env : Environment) : List (String → Option Value.Kind) := env.scopes.map Scope.kinds

/-- Environments with the same kinds have the same frames. -/
lemma sameFrames_of_kinds (h : env.kinds = env'.kinds) : env.SameFrames env' := by
  have hcurrent : env.current = env'.current := @current_of_seen _ Value.kind _ _ h
  apply sameFrames_of_length
  rw [length_names, length_names, hcurrent]

lemma kinds_withScope (id : Fin env.frames.size) (s : Scope) :
    (env.withScope id s).kinds = env.kinds.set (env.current - id) s.kinds :=
  seen_withScope Value.kind id s

end Environment

/-! ### Runs -/

/-- **A run and the run with plain literals** go side by side from variables of the
same kinds. -/
theorem kinds_simulation :
    Simulation id Value.plain (fun value value' => value.kind = value'.kind)
      fun env env' => env.kinds = env'.kinds :=
  view_simulation (fun value => value.kind_plain.symm) UnaryOp.map_kind_apply
    BinaryOp.map_kind_apply

/-- An expression with plain literals has a value of the same kind. -/
lemma Expr.map_kind_evaluate_plain (expr : Expr) {env env' : Environment}
    (h : env.kinds = env'.kinds) :
    (expr.evaluate env).1.map Value.kind = (expr.plain.evaluate env').1.map Value.kind ∧
    (expr.evaluate env).2.kinds = (expr.plain.evaluate env').2.kinds := by
  obtain ⟨houtcome, henv⟩ := kinds_simulation.evaluate expr h
  exact ⟨agree_iff.1 houtcome, henv⟩

/-- A program with plain literals ends in the same way. -/
lemma Session.record_plain (program : List Statement) {env env' : Environment}
    (h : env.kinds = env'.kinds) :
    (record env program).1 = (record env' (Statement.plainAll program)).1 ∧
    (record env program).2.environment.kinds =
      (record env' (Statement.plainAll program)).2.environment.kinds := by
  obtain ⟨houtcome, henv, -⟩ := kinds_simulation.record program h
  refine ⟨?_, henv⟩
  have hmap : (record env program).1.map id =
      (record env' (Statement.plainAll program)).1.map id := agree_iff.1 houtcome
  rwa [Except.map_id] at hmap

/-- **Faults depend on kinds, and not on values.** Take expressions, or programs, that
are the same up to literals of the same kinds, and variables that have the same kinds.
Then both expressions fail in the same way or have values of the same kind. With
receivers that never fail, both programs succeed, or both end with the same fault at the
same token. The variables have the same frames, names and kinds afterwards. -/
theorem faults_depend_on_kinds {W W' : Type} [Sink W] [Sink W'] :
    (∀ (expr expr' : Expr) (env env' : Environment), expr.plain = expr'.plain →
      env.kinds = env'.kinds →
      (expr.evaluate env).1.map Value.kind = (expr'.evaluate env').1.map Value.kind ∧
      (expr.evaluate env).2.SameFrames (expr'.evaluate env').2 ∧
      (expr.evaluate env).2.kinds = (expr'.evaluate env').2.kinds) ∧
    ∀ (program program' : List Statement) (session : Session W) (session' : Session W'),
      Statement.plainAll program = Statement.plainAll program' →
      session.environment.kinds = session'.environment.kinds →
      Sink.Reliable session.sink → Sink.Reliable session'.sink →
      let after := Statement.executeAll program session
      let after' := Statement.executeAll program' session'
      after.1 = after'.1 ∧ after.2.environment.SameFrames after'.2.environment ∧
        after.2.environment.kinds = after'.2.environment.kinds := by
  constructor
  · intro expr expr' env env' hplain henv
    -- both go beside the same plain expression
    obtain ⟨houtcome, hkinds⟩ := expr.map_kind_evaluate_plain henv
    obtain ⟨houtcome', hkinds'⟩ := expr'.map_kind_evaluate_plain (Eq.refl env'.kinds)
    rw [hplain] at houtcome hkinds
    have hafter := hkinds.trans hkinds'.symm
    exact ⟨houtcome.trans houtcome'.symm, Environment.sameFrames_of_kinds hafter, hafter⟩
  · intro program program' session session' hplain henv hsink hsink' after after'
    obtain ⟨houtcome, hkinds⟩ := Session.record_plain program henv
    obtain ⟨houtcome', hkinds'⟩ :=
      Session.record_plain program' (Eq.refl session'.environment.kinds)
    rw [hplain] at houtcome hkinds
    have hrun : after = _ := session.executeAll_of_reliable hsink program
    have hrun' : after' = _ := session'.executeAll_of_reliable hsink' program'
    have hafter : after.2.environment.kinds = after'.2.environment.kinds := by
      rw [hrun, hrun', hkinds, hkinds']
    refine ⟨?_, Environment.sameFrames_of_kinds hafter, hafter⟩
    rw [hrun, hrun', houtcome, houtcome']

/-- A block in which a string gets longer and is then compared with a number: other
numbers and strings do not alter the fault. -/
theorem faults_depend_on_kinds_in_block :
    let x : Token := ⟨.identifier, "x", none, ⟨1, 11⟩⟩
    let plus : Token := ⟨.symbol .plus, "+", none, ⟨1, 9⟩⟩
    let less : Token := ⟨.symbol .less, "<", none, ⟨2, 9⟩⟩
    let program (text : String) (bound : Float) : List Statement :=
      [.block [
        .expression (.assign x (.binary .add plus (.literal (.string text)) (.read x))),
        .print (.binary .less less (.literal (.number bound)) (.read x))]]
    let env (value : String) := Environment.withScope {} 0 [("x", .string value)]
    let sink : Buffer := {}
    Statement.plainAll (program "p" 0) = Statement.plainAll (program "" 1) ∧
    (env "u").kinds = (env "vw").kinds ∧ Sink.Reliable sink ∧
    (Statement.executeAll (program "p" 0) ⟨env "u", sink⟩).1 =
      .error (.operandsNotNumbers less) ∧
    (Statement.executeAll (program "" 1) ⟨env "vw", sink⟩).1 =
      .error (.operandsNotNumbers less) := by
  intro x plus less program env sink
  have hplain : Statement.plainAll (program "p" 0) = Statement.plainAll (program "" 1) := rfl
  have henv : (env "u").kinds = (env "vw").kinds := by
    rw [Environment.kinds_withScope, Environment.kinds_withScope, Scope.kinds_cons,
      Scope.kinds_cons]
    rfl
  have hsink : Sink.Reliable sink := Buffer.reliable rfl
  obtain ⟨-, hruns⟩ := @faults_depend_on_kinds Buffer Buffer _ _
  have hsame := (hruns (program "p" 0) (program "" 1) ⟨env "u", sink⟩ ⟨env "vw", sink⟩ hplain henv
    hsink hsink).1
  have hfault : (Statement.executeAll (program "p" 0) ⟨env "u", sink⟩).1 =
      .error (.operandsNotNumbers less) := by decide +kernel
  exact ⟨hplain, henv, hsink, hfault, hsame.symm.trans hfault⟩

end Scriptlet
