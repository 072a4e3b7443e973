import Scriptlet.Fault
import Scriptlet.Value

/-!
Variables in nested scopes.

The open scopes are frames of an arena, in the order in which they were opened.
A frame names the scope around it by the number of that scope, and variables are
found by following these links from the current scope outward.

* `Scope`: the variables of one scope with their values.
* `Frame`: a scope and the link to the one around it.
* `Linked`: the frames form one chain, from the current scope, which is the last,
  to the global scope, which is the first.
* `Environment`: the frames and the current scope, linked in this way.
* `Environment.push`, `Environment.pop`: open and close a scope.
* `Environment.resolve`: the scope to which a variable belongs.
* `Environment.define`: a new variable in the current scope.
* `Environment.get`, `Environment.assign`: the innermost variable of a name.
-/

namespace Scriptlet

/-- Variables of one scope with their values. A name occurs once. -/
abbrev Scope := List (String × Value)

namespace Scope

/-- The value of a variable. -/
def get? (s : Scope) (name : String) : Option Value := s.lookup name

/-- The scope has a variable of this name. -/
def binds (s : Scope) (name : String) : Bool := (s.get? name).isSome

/-- The scope with another value for a variable that it has. -/
def set : Scope → String → Value → Scope
  | [], _, _ => []
  | (bound, old) :: s, name, value =>
    if bound = name then (bound, value) :: s else (bound, old) :: set s name value

end Scope

/-- A scope in the arena. -/
structure Frame where
  scope : Scope := []
  /-- The number of the scope around this one. The global scope has none. -/
  enclosing : Option Nat := none

/-! ### The chain of scopes -/

/-- The scopes form a chain: each was opened in the one before it, and the last
one is current. -/
structure Linked (frames : Array Frame) (current : Nat) : Prop where
  current_last : current + 1 = frames.size
  global : ∀ h : 0 < frames.size, frames[0].enclosing = none
  nested : ∀ id, ∀ h : id + 1 < frames.size, frames[id + 1].enclosing = some id

namespace Linked

variable {frames : Array Frame} {current : Nat}

theorem current_lt (h : Linked frames current) : current < frames.size := by
  have := h.current_last
  omega

/-- Links lead to scopes that were opened earlier. -/
theorem enclosing_lt (h : Linked frames current) {id outer : Nat} (hid : id < frames.size)
    (link : frames[id].enclosing = some outer) : outer < id := by
  cases id with
  | zero => rw [h.global] at link; cases link
  | succ id => rw [h.nested id hid] at link; cases link; exact Nat.lt_succ_self _

/-- The global scope alone. -/
theorem single : Linked #[{}] 0 where
  current_last := rfl
  global := fun _ => rfl
  nested := fun id h => absurd h (Nat.not_lt_of_le (Nat.le_add_left 1 id))

/-- A scope that was opened in the current one becomes current. -/
theorem push (h : Linked frames current) (scope : Scope) :
    Linked (frames.push ⟨scope, some current⟩) frames.size where
  current_last := by rw [Array.size_push]
  global := by
    intro _
    have hsize := h.current_last
    rw [Array.getElem_push_lt (by omega)]
    exact h.global _
  nested := by
    intro id hid
    have hsize := h.current_last
    have hid' : id + 1 < frames.size + 1 := by rwa [Array.size_push] at hid
    rw [Array.getElem_push]
    split
    · exact h.nested id ‹_›
    · have heq : current = id := by omega
      rw [heq]

/-- Without the current scope, the scope around it is current. -/
theorem pop (h : Linked frames current) (hcurrent : current ≠ 0) (hsize : 0 < frames.size) :
    Linked frames.pop ((frames.back hsize).enclosing.getD 0) := by
  obtain ⟨outer, rfl⟩ := Nat.exists_eq_succ_of_ne_zero hcurrent
  have hlast := h.current_last
  have hback : (frames.back hsize).enclosing = some outer := by
    rw [Array.back, ← h.nested outer h.current_lt]
    congr 2
    omega
  rw [hback]
  constructor
  · rw [Array.size_pop, Option.getD_some]
    omega
  · intro _
    rw [Array.getElem_pop]
    exact h.global _
  · intro id hid
    rw [Array.getElem_pop]
    exact h.nested id _

/-- Another content for a scope changes no link. -/
theorem set (h : Linked frames current) (id : Fin frames.size) (scope : Scope) :
    Linked (frames.set id ⟨scope, frames[id].enclosing⟩) current where
  current_last := by rw [Array.size_set, h.current_last]
  global := by
    intro hsize
    rw [Array.getElem_set]
    split
    · rename_i hid
      simp only [Fin.getElem_fin, hid]
      exact h.global _
    · exact h.global _
  nested := by
    intro outer hsize
    rw [Array.getElem_set]
    split
    · rename_i hid
      simp only [Fin.getElem_fin, hid]
      exact h.nested outer _
    · exact h.nested outer _

end Linked

/-- The open scopes and the current one. -/
structure Environment where
  frames : Array Frame := #[{}]
  /-- The number of the scope in which declarations land. The global scope has
  number zero. -/
  current : Nat := 0
  linked : Linked frames current := by exact Linked.single

namespace Environment

/-- How many scopes are open. -/
def depth (env : Environment) : Nat := env.frames.size

/-- The current scope is the global one. -/
def isGlobal (env : Environment) : Bool := env.current == 0

/-! ### Opening and closing scopes -/

/-- Opens a scope in the current one and makes it current. -/
def push (env : Environment) : Environment :=
  ⟨env.frames.push ⟨[], some env.current⟩, env.frames.size, env.linked.push []⟩

theorem size_pos (env : Environment) : 0 < env.frames.size :=
  Nat.zero_lt_of_lt env.linked.current_lt

/-- Closes the current scope and returns to the one around it. The global scope
stays open. -/
def pop (env : Environment) : Environment :=
  if h : env.current = 0 then env
  else
    ⟨env.frames.pop, (env.frames.back env.size_pos).enclosing.getD 0,
      env.linked.pop h env.size_pos⟩

/-! ### Variables -/

/-- The place of the current scope among the frames. -/
def innermost (env : Environment) : Fin env.frames.size := ⟨env.current, env.linked.current_lt⟩

/-- The frame of a scope. -/
def frame (env : Environment) (id : Fin env.frames.size) : Frame := env.frames[id]

/-- The environment with another content for a scope. -/
def withScope (env : Environment) (id : Fin env.frames.size) (scope : Scope) : Environment :=
  ⟨env.frames.set id ⟨scope, (env.frame id).enclosing⟩, env.current, env.linked.set id scope⟩

/-- The first scope that has a variable of this name, from the scope `id` along
the links. -/
def resolveFrom (env : Environment) (name : String) (id : Fin env.frames.size) :
    Option (Fin env.frames.size) :=
  if (env.frame id).scope.binds name then some id
  else
    match link : (env.frame id).enclosing with
    | none => none
    | some outer =>
      have := env.linked.enclosing_lt id.isLt link
      env.resolveFrom name ⟨outer, by omega⟩
termination_by id.val

/-- The innermost scope that has a variable of this name. -/
def resolve (env : Environment) (name : String) : Option (Fin env.frames.size) :=
  env.resolveFrom name env.innermost

/-- Adds a variable to the current scope, which must not have it yet. -/
def define (env : Environment) (name : Token) (value : Value) : Except Fault Environment :=
  let scope := (env.frame env.innermost).scope
  if scope.binds name.lexeme then .error (.alreadyDefined name)
  else .ok (env.withScope env.innermost ((name.lexeme, value) :: scope))

/-- The value of the innermost variable of a name. -/
def get (env : Environment) (name : Token) : Except Fault Value :=
  match (env.resolve name.lexeme).bind fun id => (env.frame id).scope.get? name.lexeme with
  | some value => .ok value
  | none => .error (.undefinedVariable name)

/-- Gives the innermost variable of a name another value. -/
def assign (env : Environment) (name : Token) (value : Value) : Except Fault Environment :=
  match env.resolve name.lexeme with
  | some id => .ok (env.withScope id ((env.frame id).scope.set name.lexeme value))
  | none => .error (.undefinedVariable name)

end Environment

end Scriptlet
