import Mathlib.Data.Finmap
import Scriptlet.Proofs.Environment.Scopes

/-!
The arena of scopes against a plain stack of finite maps.

A stack of maps has no handles and no links: the topmost map is the current
scope, and a name is looked for from the top down. The same operations are
defined on both, with answers that can be compared. A step lemma says that one
operation gives the same answer on both and leaves them alike, and so does any
sequence of operations by induction.

* `Action`, `Answer`, `Observation`: the operations and what can be seen of them.
* `MapStack`, `MapStack.act`: the operations on a stack of maps.
* `Environment.act`: the operations on the arena.
* `Environment.maps`: the stack of maps that an arena stands for.
* `Environment.maps_act`: one operation does the same on both.
* `arena_refines_mapStack`: so does every sequence of operations.
-/

namespace Scriptlet

/-! ### Operations and observations -/

/-- An operation on the variables. -/
inductive Action where
  | push
  | pop
  | define (name : Token) (value : Value)
  | assign (name : Token) (value : Value)
  | get (name : Token)

/-- What an operation answers. -/
inductive Answer where
  /-- A scope was opened and has this number. -/
  | opened (id : Nat)
  | closed
  | changed (outcome : Except Fault Unit)
  | found (outcome : Except Fault Value)

/-- What can be seen of an operation: its answer, how many scopes are open
afterwards, and the number of the current one. -/
structure Observation where
  answer : Answer
  depth : Nat
  current : Nat

/-- What is seen of operations one after another, and the final state. -/
def observe {σ : Type} (act : σ → Action → Answer × σ) (depth current : σ → Nat) (start : σ) :
    List Action → List Observation × σ
  | [] => ([], start)
  | action :: actions =>
    let (answer, next) := act start action
    let (later, final) := observe act depth current next actions
    (⟨answer, depth next, current next⟩ :: later, final)

/-! ### The stack of maps -/

/-- A finite map from names to values. -/
abbrev Bindings := Finmap fun _ : String => Value

/-- Maps on top of each other, the topmost first. -/
abbrev MapStack := List Bindings

namespace MapStack

/-- The place of the topmost map that has the name. -/
def topmost? (stack : MapStack) (name : String) : Option Nat := stack.findIdx? (name ∈ ·)

/-- The operations on a stack of maps. -/
def act (stack : MapStack) : Action → Answer × MapStack
  | .push => (.opened stack.length, ∅ :: stack)
  | .pop => (.closed, if stack.length = 1 then stack else stack.tail)
  | .define name value =>
    if name.lexeme ∈ stack.headD ∅ then (.changed (.error (.alreadyDefined name)), stack)
    else (.changed (.ok ()), stack.modifyHead (·.insert name.lexeme value))
  | .assign name value =>
    match stack.topmost? name.lexeme with
    | none => (.changed (.error (.undefinedVariable name)), stack)
    | some i => (.changed (.ok ()), stack.modify i (·.insert name.lexeme value))
  | .get name =>
    match (stack.topmost? name.lexeme).bind fun i => stack[i]?.bind (·.lookup name.lexeme) with
    | none => (.found (.error (.undefinedVariable name)), stack)
    | some value => (.found (.ok value), stack)

/-- What is seen of operations on a stack of maps. -/
def observe (stack : MapStack) (actions : List Action) : List Observation × MapStack :=
  Scriptlet.observe act List.length (·.length - 1) stack actions

end MapStack

/-! ### The arena -/

/-- The map that a scope stands for. -/
def Scope.toMap : Scope → Bindings
  | [] => ∅
  | (name, value) :: s => (toMap s).insert name value

namespace Environment

/-- The operations on the arena. -/
def act (env : Environment) : Action → Answer × Environment
  | .push => (.opened env.push.current, env.push)
  | .pop => (.closed, env.pop)
  | .define name value =>
    match env.define name value with
    | .ok after => (.changed (.ok ()), after)
    | .error fault => (.changed (.error fault), env)
  | .assign name value =>
    match env.assign name value with
    | .ok after => (.changed (.ok ()), after)
    | .error fault => (.changed (.error fault), env)
  | .get name => (.found (env.get name), env)

/-- What is seen of operations on the arena. -/
def observe (env : Environment) (actions : List Action) : List Observation × Environment :=
  Scriptlet.observe act depth current env actions

/-- The stack of maps that an arena stands for. -/
def maps (env : Environment) : MapStack := env.scopes.map Scope.toMap

/-- The frames of two environments are the same, except that one scope gives one
name another value. -/
structure DiffersAt (before after : Environment) (id : Nat) (name : String) (value : Value) :
    Prop where
  size : after.frames.size = before.frames.size
  current : after.current = before.current
  enclosing : ∀ i, ∀ (h : i < before.frames.size) (h' : i < after.frames.size),
    after.frames[i].enclosing = before.frames[i].enclosing
  entries : ∀ i, ∀ (h : i < before.frames.size) (h' : i < after.frames.size), ∀ other,
    after.frames[i].scope.get? other =
      if i = id ∧ other = name then some value else before.frames[i].scope.get? other

/-- A change of a variable fails and leaves everything as it is, or succeeds and
changes one entry of one frame. -/
def ChangesAtMost (env : Environment) (name : String) (value : Value) :
    Answer × Environment → Prop
  | (.changed (.error _), after) => after = env
  | (.changed (.ok _), after) => ∃ id < env.frames.size, env.DiffersAt after id name value
  | _ => False

end Environment

/-! ### Scopes as maps -/

namespace Scope

@[simp]
lemma lookup_toMap (s : Scope) (name : String) : s.toMap.lookup name = s.get? name := by
  induction s with
  | nil => rfl
  | cons entry s ih =>
      obtain ⟨bound, value⟩ := entry
      rw [toMap, get?_cons]
      split
      case isTrue h =>
          subst h
          exact Finmap.lookup_insert _
      case isFalse h => rw [Finmap.lookup_insert_of_ne _ h, ih]

lemma mem_toMap {s : Scope} {name : String} : name ∈ s.toMap ↔ s.binds name := by
  rw [← Finmap.lookup_isSome, lookup_toMap, binds]

lemma toMap_set {s : Scope} {name : String} (value : Value) (h : s.binds name) :
    (s.set name value).toMap = s.toMap.insert name value := by
  apply Finmap.ext_lookup
  intro other
  rw [lookup_toMap, get?_set value h]
  split
  case isTrue hother =>
      subst hother
      rw [Finmap.lookup_insert]
  case isFalse hother => rw [Finmap.lookup_insert_of_ne _ hother, lookup_toMap]

end Scope

namespace Environment

variable (env : Environment)

/-! ### One operation -/

lemma length_maps : env.maps.length = env.current + 1 := by
  rw [maps, List.length_map, length_scopes]

lemma maps_eq_cons :
    env.maps = (env.scopes.headD []).toMap :: env.maps.tail := by
  rw [maps, ← List.map_tail, scopes_eq_cons]
  rfl

lemma maps_withScope (id : Fin env.frames.size) (s : Scope) :
    (env.withScope id s).maps = env.maps.set (env.current - id) s.toMap := by
  rw [maps, scopes_withScope, List.map_set, ← maps]

/-- The topmost map that has the name is that of the scope found by following
the links. -/
lemma topmost?_maps (name : String) :
    env.maps.topmost? name = (env.resolve name).map (env.current - ·.val) := by
  rw [← resolve_eq, MapStack.topmost?, maps, List.findIdx?_map]
  congr 1
  funext s
  simp [Scope.mem_toMap]

lemma getElem?_maps (id : Fin env.frames.size) :
    env.maps[env.current - id]? = some (env.frame id).scope.toMap := by
  rw [maps, List.getElem?_map, scope_eq, Option.map_some]

/-- Opening, closing, declaring, assigning and reading do the same on both. -/
theorem maps_act (action : Action) :
    env.maps.act action = ((env.act action).1, (env.act action).2.maps) := by
  cases action with
  | push =>
      rw [MapStack.act, act, length_maps, maps, maps, scopes_push, env.linked.current_last]
      rfl
  | pop =>
      rw [MapStack.act, act, length_maps, maps, maps, scopes_pop]
      by_cases hglobal : env.current = 0
      · rw [if_pos (by omega), if_pos hglobal]
      · rw [if_neg (by omega), if_neg hglobal, List.map_tail]
  | define name value =>
      have hhead : env.maps.headD ∅ = (env.scopes.headD []).toMap := by
        rw [maps_eq_cons, List.headD_cons]
      rw [MapStack.act, act, define_eq, hhead]
      simp only [Scope.mem_toMap]
      split
      · rfl
      · simp only [maps_withScope, innermost, Nat.sub_self]
        rw [maps_eq_cons, List.modifyHead_cons, List.set_cons_zero, Scope.toMap]
  | assign name value =>
      rw [MapStack.act, topmost?_maps, act]
      cases hid : env.resolve name.lexeme with
      | none => rw [env.assign_of_resolve_eq_none value hid]; rfl
      | some id =>
          rw [env.assign_of_resolve value hid]
          simp only [Option.map_some, maps_withScope]
          rw [List.modify_eq_set_getElem?, getElem?_maps, Scope.toMap_set _ (env.binds_of_resolve hid)]
          rfl
  | get name =>
      rw [MapStack.act, topmost?_maps, act]
      cases hid : env.resolve name.lexeme with
      | none => rw [env.get_of_resolve_eq_none hid]; rfl
      | some id =>
          obtain ⟨value, hvalue, hget⟩ := env.get_of_resolve hid
          simp only [Option.map_some, Option.bind_some, getElem?_maps, Scope.lookup_toMap, hvalue,
            hget]

/-! ### Changes of the frames -/

/-- Another content for one scope that differs in one name. -/
lemma differsAt_withScope {id : Fin env.frames.size} {s : Scope} {name : String} {value : Value}
    (h : ∀ other, s.get? other =
      if other = name then some value else (env.frame id).scope.get? other) :
    env.DiffersAt (env.withScope id s) id name value where
  size := by simp [withScope]
  current := rfl
  enclosing := by
    intro i hi hi'
    simp only [withScope, Array.getElem_set]
    split
    case isTrue hid => simp only [← hid, frame, Fin.getElem_fin]
    case isFalse => rfl
  entries := by
    intro i hi hi' other
    simp only [withScope, Array.getElem_set]
    split
    case isTrue hid =>
        subst hid
        simp only [true_and]
        exact h other
    case isFalse hid => rw [if_neg (fun h => hid h.1.symm)]

lemma changesAtMost_define (name : Token) (value : Value) :
    env.ChangesAtMost name.lexeme value (env.act (.define name value)) := by
  rw [act, define]
  by_cases hbinds : (env.frame env.innermost).scope.binds name.lexeme
  · simp only [hbinds, if_true]
    rfl
  · simp only [hbinds]
    refine ⟨env.innermost, env.innermost.isLt, env.differsAt_withScope ?_⟩
    exact Scope.get?_cons _ _ _

lemma changesAtMost_assign (name : Token) (value : Value) :
    env.ChangesAtMost name.lexeme value (env.act (.assign name value)) := by
  rw [act]
  cases hid : env.resolve name.lexeme with
  | none =>
      rw [env.assign_of_resolve_eq_none value hid]
      rfl
  | some id =>
      rw [env.assign_of_resolve value hid]
      refine ⟨id, id.isLt, env.differsAt_withScope ?_⟩
      exact Scope.get?_set value (env.binds_of_resolve hid)

/-! ### Any sequence of operations -/

theorem maps_observe (actions : List Action) :
    env.maps.observe actions = ((env.observe actions).1, (env.observe actions).2.maps) := by
  induction actions generalizing env with
  | nil => rfl
  | cons action actions ih =>
      have hnext := ih (env.act action).2
      have hlength := (env.act action).2.length_maps
      have hdepth : (env.act action).2.depth = (env.act action).2.current + 1 :=
        (env.act action).2.linked.current_last.symm
      rw [MapStack.observe, observe] at hnext ⊢
      simp only [Scriptlet.observe, maps_act, hnext, hlength, hdepth, Nat.add_sub_cancel]

end Environment

/-- **The arena refines a stack of maps.** Any sequence of operations on a new
environment gives the answers, depths and current scopes that it gives on a stack
with one empty map. The frames afterwards stand for the maps on the stack; the
last frame is current, the first has no link and every other one is linked to the
one before it. A declaration or an assignment that fails leaves all frames as they
are; one that succeeds changes one entry of one frame. -/
theorem arena_refines_mapStack (actions : List Action) :
    let env := (({} : Environment).observe actions).2
    (({} : Environment).observe actions).1 = (MapStack.observe [∅] actions).1 ∧
    env.maps = (MapStack.observe [∅] actions).2 ∧
    0 < env.frames.size ∧ env.current + 1 = env.frames.size ∧
    env.frames.toList.map (·.enclosing) = none :: (List.range env.current).map some ∧
    ∀ name value, env.ChangesAtMost name.lexeme value (env.act (.define name value)) ∧
      env.ChangesAtMost name.lexeme value (env.act (.assign name value)) := by
  intro env
  have hruns : MapStack.observe [∅] actions = ((({} : Environment).observe actions).1, env.maps) :=
    Environment.maps_observe {} actions
  refine ⟨by rw [hruns], by rw [hruns], env.size_pos, env.linked.current_last,
    env.map_enclosing, ?_⟩
  intro name value
  exact ⟨env.changesAtMost_define name value, env.changesAtMost_assign name value⟩

end Scriptlet
