import Mathlib.Data.Set.Basic
import Scriptlet.Proofs.Environment.Scopes

/-!
Environments that agree on some names.

Under each name the scopes form a row of values, with gaps where a scope does not have the
name. What is found, assigned or declared under a name depends on the row of that name and
changes no other row. So environments that agree on some names keep doing so as long as the
same is done to both, and an operation on another name leaves an environment that agrees with
the one before.

* `Environment.valuesOf`: the row of a name.
* `Environment.Puts`: one value is put in one place of one row.
* `Environment.get_eq`, `Environment.assign_of_valuesOf`, `Environment.define_of_valuesOf`: what
  the operations do to rows.
* `Environment.AgreeOn`: as many scopes, with the same rows of the given names.
-/

namespace Scriptlet

namespace Environment

/-! ### The values under a name -/

/-- What the scopes have under a name, from the current scope outward. -/
def valuesOf (env : Environment) (name : String) : List (Option Value) :=
  env.scopes.map (·.get? name)

variable (env : Environment)

lemma depth_push : env.push.depth = env.depth + 1 := Array.size_push _

lemma depth_pop : env.pop.depth = if env.current = 0 then env.depth else env.depth - 1 := by
  rw [pop]
  split
  · rfl
  · exact Array.size_pop

lemma valuesOf_push (name : String) : env.push.valuesOf name = none :: env.valuesOf name := by
  rw [valuesOf, scopes_push, List.map_cons]
  rfl

lemma valuesOf_pop (name : String) :
    env.pop.valuesOf name =
      if env.current = 0 then env.valuesOf name else (env.valuesOf name).tail := by
  rw [valuesOf, scopes_pop]
  split
  · rfl
  · rw [List.map_tail, ← valuesOf]

lemma valuesOf_withScope (id : Fin env.frames.size) (s : Scope) (name : String) :
    (env.withScope id s).valuesOf name =
      (env.valuesOf name).set (env.current - id) (s.get? name) := by
  rw [valuesOf, scopes_withScope, List.map_set, ← valuesOf]

lemma getElem?_valuesOf (id : Fin env.frames.size) (name : String) :
    (env.valuesOf name)[env.current - id]? = some ((env.frame id).scope.get? name) := by
  rw [valuesOf, List.getElem?_map, scope_eq, Option.map_some]

/-- A name belongs to the first scope that has a value under it. -/
lemma resolve_eq_findIdx? (name : String) :
    (env.resolve name).map (env.current - ·.val) =
      (env.valuesOf name).findIdx? Option.isSome := by
  rw [← resolve_eq, valuesOf, List.findIdx?_map]
  rfl

/-! ### One value -/

/-- The environments differ at most in one scope and under one name, where the second one has
the value. -/
structure Puts (env : Environment) (name : String) (place : Nat) (value : Value)
    (after : Environment) : Prop where
  depth : after.depth = env.depth
  row : after.valuesOf name = (env.valuesOf name).set place (some value)
  other : ∀ other, other ≠ name → after.valuesOf other = env.valuesOf other

lemma puts_withScope {id : Fin env.frames.size} {s : Scope} {name : String} {value : Value}
    (h : ∀ other, s.get? other =
      if other = name then some value else (env.frame id).scope.get? other) :
    env.Puts name (env.current - id) value (env.withScope id s) where
  depth := by rw [depth, depth, withScope, Array.size_set]
  row := by rw [valuesOf_withScope, h name, if_pos rfl]
  other := by
    intro other hother
    obtain ⟨hlt, heq⟩ := List.getElem?_eq_some_iff.1 (env.getElem?_valuesOf id other)
    rw [valuesOf_withScope, h other, if_neg hother, ← heq, List.set_getElem_self]

/-! ### Operations on one name -/

/-- The value of a variable is the first one under its name. -/
lemma get_eq (name : Token) :
    env.get name =
      (((env.valuesOf name.lexeme).findIdx? Option.isSome).bind fun place =>
        (env.valuesOf name.lexeme)[place]?.join).elim (.error (.undefinedVariable name)) .ok := by
  rw [← resolve_eq_findIdx?]
  cases hid : env.resolve name.lexeme with
  | none => rw [env.get_of_resolve_eq_none hid]; rfl
  | some id =>
      obtain ⟨value, hvalue, hget⟩ := env.get_of_resolve hid
      rw [Option.map_some, Option.bind_some, getElem?_valuesOf, hvalue, hget]
      rfl

variable {env} {name : Token}

lemma assign_of_valuesOf_eq_none
    (h : (env.valuesOf name.lexeme).findIdx? Option.isSome = none) (value : Value) :
    env.assign name value = .error (.undefinedVariable name) := by
  rw [← resolve_eq_findIdx?, Option.map_eq_none_iff] at h
  exact env.assign_of_resolve_eq_none value h

/-- An assignment replaces the first value under the name. -/
lemma assign_of_valuesOf {place : Nat}
    (h : (env.valuesOf name.lexeme).findIdx? Option.isSome = some place) (value : Value) :
    ∃ after, env.assign name value = .ok after ∧ env.Puts name.lexeme place value after := by
  rw [← resolve_eq_findIdx?, Option.map_eq_some_iff] at h
  obtain ⟨id, hid, rfl⟩ := h
  exact ⟨_, env.assign_of_resolve value hid,
    env.puts_withScope (Scope.get?_set value (env.binds_of_resolve hid))⟩

/-- The current scope comes first in a row. -/
lemma headD_valuesOf (env : Environment) (name : String) :
    (env.valuesOf name).headD none = (env.scopes.headD []).get? name := by
  rw [valuesOf, scopes_eq_cons]
  rfl

lemma define_of_valuesOf_isSome (h : ((env.valuesOf name.lexeme).headD none).isSome)
    (value : Value) : env.define name value = .error (.alreadyDefined name) := by
  rw [headD_valuesOf] at h
  rw [define_eq]
  exact if_pos h

/-- A declaration puts a value into the current scope. -/
lemma define_of_valuesOf (h : ¬ ((env.valuesOf name.lexeme).headD none).isSome) (value : Value) :
    ∃ after, env.define name value = .ok after ∧ env.Puts name.lexeme 0 value after := by
  have hscope : env.scopes.headD [] = (env.frame env.innermost).scope := by
    rw [scopes_eq_cons]
    rfl
  have hplace : env.current - env.innermost.val = 0 := Nat.sub_self _
  rw [headD_valuesOf] at h
  refine ⟨_, (env.define_eq name value).trans (if_neg h), ?_⟩
  rw [← hplace]
  apply puts_withScope
  intro other
  rw [Scope.get?_cons, hscope]

/-! ### Agreement -/

/-- There are as many scopes, and each scope has the same values under the given names, or
does not have them either. -/
structure AgreeOn (names : Set String) (env env' : Environment) : Prop where
  depth : env.depth = env'.depth
  values : ∀ name ∈ names, env.valuesOf name = env'.valuesOf name

variable {names : Set String} {env' : Environment}

namespace AgreeOn

lemma refl (names : Set String) (env : Environment) : AgreeOn names env env :=
  ⟨rfl, fun _ _ => rfl⟩

lemma trans {env'' : Environment} (h : AgreeOn names env env') (h' : AgreeOn names env' env'') :
    AgreeOn names env env'' :=
  ⟨h.depth.trans h'.depth, fun name hname => (h.values name hname).trans (h'.values name hname)⟩

lemma current_eq (h : AgreeOn names env env') : env.current = env'.current := by
  have hsize : env.frames.size = env'.frames.size := h.depth
  have hlast := env.linked.current_last
  have hlast' := env'.linked.current_last
  omega

/-! ### The same is done to both -/

lemma push (h : AgreeOn names env env') : AgreeOn names env.push env'.push where
  depth := by rw [depth_push, depth_push, h.depth]
  values := by
    intro name hname
    rw [valuesOf_push, valuesOf_push, h.values name hname]

lemma pop (h : AgreeOn names env env') : AgreeOn names env.pop env'.pop where
  depth := by rw [depth_pop, depth_pop, h.current_eq, h.depth]
  values := by
    intro name hname
    rw [valuesOf_pop, valuesOf_pop, h.current_eq, h.values name hname]

lemma get (h : AgreeOn names env env') (hname : name.lexeme ∈ names) :
    env.get name = env'.get name := by
  rw [get_eq, get_eq, h.values _ hname]

/-- The same value is put in the same place. -/
lemma puts {name : String} {place : Nat} {value : Value} {after after' : Environment}
    (h : AgreeOn names env env') (hafter : env.Puts name place value after)
    (hafter' : env'.Puts name place value after') : AgreeOn names after after' where
  depth := by rw [hafter.depth, hafter'.depth, h.depth]
  values := by
    intro other hmem
    by_cases hname : other = name
    · subst hname
      rw [hafter.row, hafter'.row, h.values other hmem]
    · rw [hafter.other other hname, hafter'.other other hname, h.values other hmem]

lemma assign (h : AgreeOn names env env') (hname : name.lexeme ∈ names) (value : Value) :
    (∃ fault, env.assign name value = .error fault ∧ env'.assign name value = .error fault) ∨
    ∃ after after', env.assign name value = .ok after ∧ env'.assign name value = .ok after' ∧
      AgreeOn names after after' := by
  have hvalues := h.values _ hname
  cases hplace : (env.valuesOf name.lexeme).findIdx? Option.isSome with
  | none =>
      exact .inl ⟨_, assign_of_valuesOf_eq_none hplace value,
        assign_of_valuesOf_eq_none (hvalues ▸ hplace) value⟩
  | some place =>
      obtain ⟨after, hassign, hafter⟩ := assign_of_valuesOf hplace value
      obtain ⟨after', hassign', hafter'⟩ := assign_of_valuesOf (hvalues ▸ hplace) value
      exact .inr ⟨after, after', hassign, hassign', h.puts hafter hafter'⟩

lemma define (h : AgreeOn names env env') (hname : name.lexeme ∈ names) (value : Value) :
    (∃ fault, env.define name value = .error fault ∧ env'.define name value = .error fault) ∨
    ∃ after after', env.define name value = .ok after ∧ env'.define name value = .ok after' ∧
      AgreeOn names after after' := by
  have hvalues := h.values _ hname
  by_cases hbound : ((env.valuesOf name.lexeme).headD none).isSome
  · exact .inl ⟨_, define_of_valuesOf_isSome hbound value,
      define_of_valuesOf_isSome (hvalues ▸ hbound) value⟩
  · obtain ⟨after, hdefine, hafter⟩ := define_of_valuesOf hbound value
    obtain ⟨after', hdefine', hafter'⟩ := define_of_valuesOf (hvalues ▸ hbound) value
    exact .inr ⟨after, after', hdefine, hdefine', h.puts hafter hafter'⟩

/-! ### Something is done to another name -/

lemma of_puts {name : String} {place : Nat} {value : Value} {after : Environment}
    (h : env.Puts name place value after) (hname : name ∉ names) : AgreeOn names env after where
  depth := h.depth.symm
  values := by
    intro other hmem
    have hne : other ≠ name := fun heq => hname (heq ▸ hmem)
    exact (h.other other hne).symm

lemma of_assign {value : Value} {after : Environment} (h : env.assign name value = .ok after)
    (hname : name.lexeme ∉ names) : AgreeOn names env after := by
  cases hplace : (env.valuesOf name.lexeme).findIdx? Option.isSome with
  | none =>
      rw [assign_of_valuesOf_eq_none hplace] at h
      cases h
  | some place =>
      obtain ⟨_, hassign, hafter⟩ := assign_of_valuesOf hplace value
      cases hassign.symm.trans h
      exact of_puts hafter hname

lemma of_define {value : Value} {after : Environment} (h : env.define name value = .ok after)
    (hname : name.lexeme ∉ names) : AgreeOn names env after := by
  by_cases hbound : ((env.valuesOf name.lexeme).headD none).isSome
  · rw [define_of_valuesOf_isSome hbound] at h
    cases h
  · obtain ⟨_, hdefine, hafter⟩ := define_of_valuesOf hbound value
    cases hdefine.symm.trans h
    exact of_puts hafter hname

/-- Closing a scope that was opened leads back. -/
lemma of_push {after : Environment} (h : AgreeOn names env.push after) :
    AgreeOn names env after.pop := by
  have hback : AgreeOn names env env.push.pop := by
    have hopen : env.push.current ≠ 0 := Nat.ne_of_gt env.size_pos
    refine ⟨?_, ?_⟩
    · rw [depth_pop, if_neg hopen, depth_push, Nat.add_sub_cancel]
    · intro name _
      rw [valuesOf_pop, if_neg hopen, valuesOf_push, List.tail_cons]
  exact hback.trans h.pop

end AgreeOn

end Environment

end Scriptlet
