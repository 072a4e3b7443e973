import Mathlib.Data.Finset.Insert
import Mathlib.Tactic.Lemma
import Scriptlet.Environment

/-!
The scopes of an environment from the inside outward.

The arena keeps the scopes in the order in which they were opened, and reaches
them through links. All that can be observed depends only on the list of scopes
from the current one to the global one, and every operation is described here by
what it does to that list.

* `Environment.scopes`: the list.
* `Environment.resolve_eq`: following the links finds the first scope of the list
  that has the name.
* `Environment.scopes_push`, `Environment.scopes_pop`: opening and closing.
* `Environment.define_eq`, `Environment.get_of_resolve`,
  `Environment.assign_of_resolve`: the variables.
* `Environment.names`: the names in each scope, which only a declaration changes.
-/

namespace Scriptlet

/-! ### One scope -/

namespace Scope

@[simp]
lemma get?_nil (name : String) : get? [] name = none := rfl

lemma get?_cons (bound : String) (value : Value) (s : Scope) (name : String) :
    get? ((bound, value) :: s) name = if name = bound then some value else s.get? name := by
  rw [get?, List.lookup_cons]
  by_cases h : name = bound
  · simp [h]
  · rw [beq_eq_false_iff_ne.2 h, if_neg h]
    rfl

/-- Another value for a variable changes that variable alone. -/
lemma get?_set {s : Scope} {name : String} (value : Value) (h : s.binds name) (other : String) :
    (s.set name value).get? other = if other = name then some value else s.get? other := by
  induction s with
  | nil => simp [binds] at h
  | cons entry s ih =>
      obtain ⟨bound, old⟩ := entry
      rw [set]
      split
      case isTrue hbound =>
          subst hbound
          rw [get?_cons, get?_cons]
          split <;> rfl
      case isFalse hbound =>
          have hs : binds s name := by
            rwa [binds, get?_cons, if_neg (Ne.symm hbound)] at h
          rw [get?_cons, get?_cons, ih hs]
          grind

/-- The names of the variables. -/
def names (s : Scope) : Finset String := (s.map Prod.fst).toFinset

@[simp]
lemma names_nil : names [] = ∅ := rfl

@[simp]
lemma names_cons (bound : String) (value : Value) (s : Scope) :
    names ((bound, value) :: s) = insert bound s.names := by
  simp [names]

lemma mem_names {s : Scope} {name : String} : name ∈ s.names ↔ s.binds name := by
  induction s with
  | nil => simp [binds]
  | cons entry s ih =>
      obtain ⟨bound, value⟩ := entry
      rw [names_cons, Finset.mem_insert, ih, binds, binds, get?_cons]
      by_cases h : name = bound
      · simp [h]
      · simp [h]

/-- Another value for a variable changes no name. -/
@[simp]
lemma names_set {s : Scope} {name : String} (value : Value) : (s.set name value).names = s.names := by
  induction s with
  | nil => rfl
  | cons entry s ih =>
      obtain ⟨bound, old⟩ := entry
      rw [set]
      split
      · simp
      · simp [ih]

end Scope

namespace Environment

variable (env : Environment)

/-! ### The list of scopes -/

/-- The open scopes from the inside outward. -/
def scopes : List Scope := (env.frames.toList.map (·.scope)).reverse

@[simp]
lemma length_scopes : env.scopes.length = env.current + 1 := by
  simp [scopes, env.linked.current_last]

/-- The scope in a place of the list, and its frame. -/
lemma getElem_scopes {i : Nat} (h : i < env.scopes.length)
    (h' : env.current - i < env.frames.size) :
    env.scopes[i] = env.frames[env.current - i].scope := by
  have hsize := env.linked.current_last
  simp only [scopes, List.getElem_reverse, List.length_map, Array.length_toList, List.getElem_map,
    Array.getElem_toList]
  congr 3
  omega

/-- The frame of a scope, and its place in the list. -/
lemma scope_eq (id : Fin env.frames.size) :
    env.scopes[env.current - id]? = some (env.frame id).scope := by
  have hsize := env.linked.current_last
  have hid := id.isLt
  rw [List.getElem?_eq_getElem (by rw [length_scopes]; omega), getElem_scopes _ _ (by omega)]
  simp only [frame, Fin.getElem_fin]
  congr 3
  omega

/-- The current scope comes first. -/
lemma scopes_eq_cons : env.scopes = (env.frame env.innermost).scope :: env.scopes.tail := by
  have hfirst := env.scope_eq env.innermost
  rw [innermost, Nat.sub_self] at hfirst
  cases hscopes : env.scopes with
  | nil => simp [hscopes] at hfirst
  | cons s outer =>
      rw [hscopes, List.getElem?_cons_zero, Option.some.injEq] at hfirst
      rw [List.tail_cons, hfirst]
      rfl

@[simp]
lemma scopes_push : env.push.scopes = [] :: env.scopes := by
  simp [scopes, push]

lemma scopes_pop : env.pop.scopes = if env.current = 0 then env.scopes else env.scopes.tail := by
  rw [pop]
  split
  · rfl
  · simp [scopes, List.map_dropLast]

lemma scopes_withScope (id : Fin env.frames.size) (s : Scope) :
    (env.withScope id s).scopes = env.scopes.set (env.current - id) s := by
  have hsize := env.linked.current_last
  apply List.ext_getElem
  · simp [withScope]
  intro i hi hi'
  have hi₀ := hi
  rw [length_scopes] at hi₀
  have hcurrent : (env.withScope id s).current = env.current := rfl
  rw [hcurrent] at hi₀
  rw [getElem_scopes _ _ (by simp [withScope]; omega), List.getElem_set]
  simp only [withScope, Array.getElem_set]
  have hid := id.isLt
  by_cases hplace : env.current - id = i
  · rw [if_pos hplace, if_pos (by omega)]
  · rw [if_neg hplace, if_neg (by omega), getElem_scopes]

/-! ### Following the links -/

/-- The links of the frames, from the global scope on. -/
lemma map_enclosing :
    env.frames.toList.map (·.enclosing) = none :: (List.range env.current).map some := by
  have hsize := env.linked.current_last
  apply List.ext_getElem
  · simp [hsize]
  · intro i hi hi'
    cases i with
    | zero => simpa using env.linked.global env.size_pos
    | succ i =>
        have hi₀ : i + 1 < env.frames.size := by simpa using hi
        simpa using env.linked.nested i hi₀

/-- Only the global scope has no link. -/
lemma eq_zero_of_enclosing {id : Fin env.frames.size} (link : (env.frame id).enclosing = none) :
    id.val = 0 := by
  by_contra hne
  obtain ⟨outer, hid⟩ := Nat.exists_eq_add_one_of_ne_zero hne
  simp only [frame, Fin.getElem_fin, hid, env.linked.nested] at link
  cases link

/-- A link leads to the scope that was opened just before. -/
lemma eq_succ_of_enclosing {id : Fin env.frames.size} {outer : Nat}
    (link : (env.frame id).enclosing = some outer) : id.val = outer + 1 := by
  have hlt := env.linked.enclosing_lt id.isLt link
  obtain ⟨before, hid⟩ := Nat.exists_eq_add_one_of_ne_zero (Nat.ne_zero_of_lt hlt)
  simp only [frame, Fin.getElem_fin, hid, env.linked.nested] at link
  cases link
  exact hid

/-- Links are followed outward. -/
lemma le_of_resolveFrom {name : String} {id found : Fin env.frames.size}
    (h : env.resolveFrom name id = some found) : found.val ≤ id.val := by
  fun_induction env.resolveFrom name id with
  | case1 id _ => cases h; exact Nat.le_refl _
  | case2 => cases h
  | case3 id _ outer link hlt ih => exact (ih h).trans hlt.le

/-- The scopes from a given one outward start with that one. -/
lemma drop_scopes (id : Fin env.frames.size) :
    env.scopes.drop (env.current - id) =
      (env.frame id).scope :: env.scopes.drop (env.current - id + 1) :=
  List.drop_eq_getElem?_toList_append.trans (by rw [scope_eq]; rfl)

lemma resolveFrom_eq (name : String) (id : Fin env.frames.size) :
    (env.scopes.drop (env.current - id)).findIdx? (·.binds name) =
      (env.resolveFrom name id).map (id.val - ·.val) := by
  have hsize := env.linked.current_last
  fun_induction env.resolveFrom name id with
  | case1 id hbinds =>
      rw [drop_scopes, List.findIdx?_cons, if_pos hbinds, Option.map_some, Nat.sub_self]
  | case2 id hbinds link =>
      have hid := env.eq_zero_of_enclosing link
      rw [drop_scopes, List.findIdx?_cons, if_neg hbinds, hid, List.drop_of_length_le (by simp)]
      rfl
  | case3 id hbinds outer link hlt ih =>
      have hid := env.eq_succ_of_enclosing link
      have hplace : env.current - id + 1 = env.current - outer := by omega
      rw [drop_scopes, List.findIdx?_cons, if_neg hbinds, hplace, ih, Option.map_map]
      -- one more link has been followed
      refine Option.map_congr fun found hfound => ?_
      have hle := env.le_of_resolveFrom hfound
      simp only [Function.comp_apply] at hle ⊢
      omega

/-- **Following the links finds the innermost scope** that has the name. -/
theorem resolve_eq (name : String) :
    env.scopes.findIdx? (·.binds name) = (env.resolve name).map (env.current - ·.val) := by
  have h := env.resolveFrom_eq name env.innermost
  rwa [innermost, Nat.sub_self, List.drop_zero] at h

/-- The scope that is found has the name. -/
lemma binds_of_resolve {name : String} {id : Fin env.frames.size}
    (h : env.resolve name = some id) : (env.frame id).scope.binds name := by
  have hindex := env.resolve_eq name
  rw [h, Option.map_some, List.findIdx?_eq_some_iff_getElem] at hindex
  obtain ⟨hlt, hbinds, -⟩ := hindex
  have hscope := env.scope_eq id
  rw [List.getElem?_eq_getElem hlt, Option.some.injEq] at hscope
  rwa [hscope] at hbinds

/-! ### Variables -/

lemma define_eq (name : Token) (value : Value) :
    env.define name value =
      if (env.scopes.headD []).binds name.lexeme then .error (.alreadyDefined name)
      else .ok (env.withScope env.innermost ((name.lexeme, value) :: env.scopes.headD [])) := by
  rw [scopes_eq_cons]
  rfl

lemma get_of_resolve {name : Token} {id : Fin env.frames.size}
    (h : env.resolve name.lexeme = some id) :
    ∃ value, (env.frame id).scope.get? name.lexeme = some value ∧ env.get name = .ok value := by
  obtain ⟨value, hvalue⟩ := Option.isSome_iff_exists.1 (env.binds_of_resolve h)
  exact ⟨value, hvalue, by rw [get, h, Option.bind_some, hvalue]⟩

lemma get_of_resolve_eq_none {name : Token} (h : env.resolve name.lexeme = none) :
    env.get name = .error (.undefinedVariable name) := by
  rw [get, h, Option.bind_none]

lemma assign_of_resolve {name : Token} {id : Fin env.frames.size} (value : Value)
    (h : env.resolve name.lexeme = some id) :
    env.assign name value =
      .ok (env.withScope id ((env.frame id).scope.set name.lexeme value)) := by
  rw [assign, h]

lemma assign_of_resolve_eq_none {name : Token} (value : Value)
    (h : env.resolve name.lexeme = none) :
    env.assign name value = .error (.undefinedVariable name) := by
  rw [assign, h]

/-! ### Names -/

/-- The names in each of the open scopes, from the inside outward. -/
def names : List (Finset String) := env.scopes.map Scope.names

@[simp]
lemma length_names : env.names.length = env.current + 1 := by
  rw [names, List.length_map, length_scopes]

/-- The names in the current scope come first. -/
lemma names_eq_cons : env.names = env.names.headD ∅ :: env.names.tail := by
  rw [names, scopes_eq_cons]
  rfl

lemma names_ne_nil : env.names ≠ [] := by
  rw [names_eq_cons]
  exact List.cons_ne_nil _ _

@[simp]
lemma names_push : env.push.names = ∅ :: env.names := by
  simp [names]

/-- Closing a scope leaves the names in the scopes around it. -/
lemma names_pop_of_cons {inner : Finset String} {outer : List (Finset String)}
    (h : env.names = inner :: outer) (houter : outer ≠ []) : env.pop.names = outer := by
  have hlength := env.length_names
  have hpos := List.length_pos_iff.2 houter
  rw [h, List.length_cons] at hlength
  rw [names, scopes_pop, if_neg (by omega), List.map_tail, ← names, h, List.tail_cons]

/-- Nothing is found exactly if no scope has the name. -/
lemma resolve_eq_none_iff {name : String} :
    env.resolve name = none ↔ ∀ s ∈ env.names, name ∉ s := by
  rw [← Option.map_eq_none_iff (f := (env.current - ·.val)), ← resolve_eq,
    List.findIdx?_eq_none_iff]
  simp [names, Scope.mem_names]

/-- Another value for a variable changes no name. -/
lemma names_of_assign {name : Token} {value : Value} {after : Environment}
    (h : env.assign name value = .ok after) : after.names = env.names := by
  cases hid : env.resolve name.lexeme with
  | none =>
      rw [env.assign_of_resolve_eq_none value hid] at h
      cases h
  | some id =>
      rw [env.assign_of_resolve value hid] at h
      cases h
      have hplace : env.names[env.current - id]? = some (env.frame id).scope.names := by
        rw [names, List.getElem?_map, scope_eq, Option.map_some]
      obtain ⟨hlt, heq⟩ := List.getElem?_eq_some_iff.1 hplace
      rw [names, scopes_withScope, List.map_set, Scope.names_set, ← heq, ← names,
        List.set_getElem_self]

/-- A declaration adds its name to the current scope. -/
lemma names_of_define {name : Token} {value : Value} {after : Environment}
    (h : env.define name value = .ok after) :
    after.names = insert name.lexeme (env.names.headD ∅) :: env.names.tail := by
  rw [define_eq] at h
  split at h
  · cases h
  · cases h
    rw [names, names, scopes_withScope, innermost, Nat.sub_self, scopes_eq_cons]
    simp

/-- A declaration is a duplicate exactly if the current scope has the name. -/
lemma define_eq_error_iff {name : Token} {value : Value} {fault : Fault} :
    env.define name value = .error fault ↔
      fault = .alreadyDefined name ∧ name.lexeme ∈ env.names.headD ∅ := by
  have hhead : env.names.headD ∅ = (env.scopes.headD []).names := by
    rw [names, scopes_eq_cons]
    rfl
  rw [define_eq, hhead, Scope.mem_names]
  split
  case isTrue hbinds =>
      constructor
      · rintro ⟨⟩
        exact ⟨rfl, hbinds⟩
      · rintro ⟨rfl, -⟩
        rfl
  case isFalse hbinds =>
      constructor
      · rintro ⟨⟩
      · rintro ⟨-, h⟩
        exact absurd h hbinds

/-- A read fails exactly if no scope has the name. -/
lemma get_eq_error_iff {name : Token} {fault : Fault} :
    env.get name = .error fault ↔
      fault = .undefinedVariable name ∧ ∀ s ∈ env.names, name.lexeme ∉ s := by
  rw [← resolve_eq_none_iff]
  cases hid : env.resolve name.lexeme with
  | none => simp [env.get_of_resolve_eq_none hid, eq_comm]
  | some id =>
      obtain ⟨value, -, hget⟩ := env.get_of_resolve hid
      simp [hget]

/-- An assignment fails exactly if no scope has the name. -/
lemma assign_eq_error_iff {name : Token} {value : Value} {fault : Fault} :
    env.assign name value = .error fault ↔
      fault = .undefinedVariable name ∧ ∀ s ∈ env.names, name.lexeme ∉ s := by
  rw [← resolve_eq_none_iff]
  cases hid : env.resolve name.lexeme with
  | none => simp [env.assign_of_resolve_eq_none value hid, eq_comm]
  | some id => simp [env.assign_of_resolve value hid]

end Environment

end Scriptlet
