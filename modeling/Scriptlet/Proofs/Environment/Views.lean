import Scriptlet.Proofs.Environment.Scopes

/-!
Variables through a view of their values.

A view keeps a part of each value, such as its kind, or all of it. Through a view an
environment is a row of functions from names, one for each scope. Which scope a name belongs
to is decided by these functions, so environments that look the same stay so under every
operation with values that look the same.

* `Scope.seen`, `Environment.seen`: variables through a view.
* `Environment.resolve_of_seen`: a name belongs to corresponding scopes.
* `Environment.map_get`, `Environment.map_assign`, `Environment.map_define`: the operations
  through a view.
-/

namespace Scriptlet

variable {γ : Type}

namespace Scope

/-- What a view shows of the variables of a scope. -/
def seen (view : Value → γ) (s : Scope) (name : String) : Option γ := (s.get? name).map view

variable (view : Value → γ)

lemma seen_cons (name : String) (value : Value) (s : Scope) :
    seen view ((name, value) :: s) = Function.update (s.seen view) name (some (view value)) := by
  funext other
  rw [seen, get?_cons, Function.update_apply]
  split <;> rfl

lemma seen_set {s : Scope} {name : String} (value : Value) (h : s.binds name) :
    (s.set name value).seen view = Function.update (s.seen view) name (some (view value)) := by
  funext other
  rw [seen, get?_set value h, Function.update_apply]
  split <;> rfl

lemma binds_eq_isSome_seen (s : Scope) (name : String) :
    s.binds name = (s.seen view name).isSome := by
  rw [binds, seen, Option.isSome_map]

end Scope

namespace Environment

/-- What a view shows of the variables in each scope, from the current one outward. -/
def seen (view : Value → γ) (env : Environment) : List (String → Option γ) :=
  env.scopes.map (Scope.seen view)

variable {view : Value → γ} {env env' : Environment}

lemma length_seen (view : Value → γ) (env : Environment) :
    (env.seen view).length = env.current + 1 := by
  rw [seen, List.length_map, length_scopes]

lemma current_of_seen (h : env.seen view = env'.seen view) : env.current = env'.current := by
  have hlength := congrArg List.length h
  rw [length_seen, length_seen] at hlength
  omega

lemma seen_withScope (view : Value → γ) (id : Fin env.frames.size) (s : Scope) :
    (env.withScope id s).seen view = (env.seen view).set (env.current - id) (s.seen view) := by
  rw [seen, scopes_withScope, List.map_set, ← seen]

/-! ### Scopes -/

lemma seen_push (h : env.seen view = env'.seen view) :
    env.push.seen view = env'.push.seen view := by
  rw [seen, seen, scopes_push, scopes_push, List.map_cons, List.map_cons]
  exact congrArg _ h

lemma seen_pop (h : env.seen view = env'.seen view) : env.pop.seen view = env'.pop.seen view := by
  have hcurrent := current_of_seen h
  rw [seen, seen, scopes_pop, scopes_pop, hcurrent]
  split
  · exact h
  · rw [List.map_tail, List.map_tail, ← seen, ← seen, h]

/-! ### Names -/

/-- The scope of a variable is found through any view. -/
lemma resolve_eq_seen (view : Value → γ) (env : Environment) (name : String) :
    (env.resolve name).map (env.current - ·.val) =
      (env.seen view).findIdx? fun scope => (scope name).isSome := by
  rw [← resolve_eq, seen, List.findIdx?_map]
  congr 1
  funext s
  exact s.binds_eq_isSome_seen view name

lemma seen_frame (view : Value → γ) (id : Fin env.frames.size) :
    (env.seen view)[env.current - id]? = some ((env.frame id).scope.seen view) := by
  rw [seen, List.getElem?_map, scope_eq, Option.map_some]

/-- A name belongs to scopes that correspond to each other and look the same, or to none. -/
lemma resolve_of_seen (h : env.seen view = env'.seen view) (name : String) :
    (env.resolve name = none ∧ env'.resolve name = none) ∨
    ∃ id id', env.resolve name = some id ∧ env'.resolve name = some id' ∧
      env.current - id.val = env'.current - id'.val ∧
      (env.frame id).scope.seen view = (env'.frame id').scope.seen view := by
  have hindex := env.resolve_eq_seen view name
  rw [h, ← resolve_eq_seen] at hindex
  cases hid : env.resolve name with
  | none =>
      rw [hid, Option.map_none, eq_comm, Option.map_eq_none_iff] at hindex
      exact .inl ⟨rfl, hindex⟩
  | some id =>
      rw [hid, Option.map_some, eq_comm, Option.map_eq_some_iff] at hindex
      obtain ⟨id', hid', hdistance⟩ := hindex
      refine .inr ⟨id, id', rfl, hid', hdistance.symm, ?_⟩
      have hscope := env.seen_frame view id
      rw [h, ← hdistance, seen_frame] at hscope
      exact (Option.some.inj hscope).symm

/-! ### Operations -/

lemma map_get (h : env.seen view = env'.seen view) (name : Token) :
    (env.get name).map view = (env'.get name).map view := by
  obtain ⟨hid, hid'⟩ | ⟨id, id', hid, hid', -, hscope⟩ := resolve_of_seen h name.lexeme
  · rw [get_of_resolve_eq_none _ hid, get_of_resolve_eq_none _ hid']
  · obtain ⟨value, hvalue, hget⟩ := env.get_of_resolve hid
    obtain ⟨value', hvalue', hget'⟩ := env'.get_of_resolve hid'
    have hview := congrFun hscope name.lexeme
    rw [Scope.seen, Scope.seen, hvalue, hvalue'] at hview
    rw [hget, hget']
    exact congrArg Except.ok (Option.some.inj hview)

lemma map_assign (h : env.seen view = env'.seen view) (name : Token) {value value' : Value}
    (hvalue : view value = view value') :
    (env.assign name value).map (seen view) = (env'.assign name value').map (seen view) := by
  obtain ⟨hid, hid'⟩ | ⟨id, id', hid, hid', hdistance, hscope⟩ := resolve_of_seen h name.lexeme
  · rw [assign_of_resolve_eq_none _ _ hid, assign_of_resolve_eq_none _ _ hid']
  · rw [assign_of_resolve _ value hid, assign_of_resolve _ value' hid']
    refine congrArg Except.ok ?_
    rw [seen_withScope, seen_withScope, Scope.seen_set view value (binds_of_resolve _ hid),
      Scope.seen_set view value' (binds_of_resolve _ hid'), h, hdistance, hscope, hvalue]

lemma map_define (h : env.seen view = env'.seen view) (name : Token) {value value' : Value}
    (hvalue : view value = view value') :
    (env.define name value).map (seen view) = (env'.define name value').map (seen view) := by
  have hscope : (env.scopes.headD []).seen view = (env'.scopes.headD []).seen view := by
    rw [seen, seen, scopes_eq_cons, scopes_eq_cons env'] at h
    rw [scopes_eq_cons, scopes_eq_cons env']
    exact (List.cons.inj h).1
  rw [define_eq, define_eq, Scope.binds_eq_isSome_seen view, Scope.binds_eq_isSome_seen view,
    hscope]
  split
  · rfl
  · refine congrArg Except.ok ?_
    rw [seen_withScope, seen_withScope, Scope.seen_cons, Scope.seen_cons, h, hscope, hvalue]
    simp only [innermost, Nat.sub_self]

end Environment

end Scriptlet
