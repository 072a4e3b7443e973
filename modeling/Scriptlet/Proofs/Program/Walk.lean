import Mathlib.Data.Finset.Insert
import Mathlib.Tactic.Lemma
import Scriptlet.Evaluation

/-!
Programs as the points that running them comes by.

The walk of a program lists, in the order of evaluation, the places where names
are looked up or declared, operators are applied, lines are printed, and scopes
are opened and closed. Names can be checked along the walk without running
anything, and every fault belongs to a place of the walk.

* `Visit`: a place of a program.
* `Expr.walk`, `Statement.walk`: the places in the order of evaluation.
* `Visit.check`, `check`: the names that are known along a walk, up to the first
  one that is unknown or declared twice.
* `Visit.Raises`, `Stops`: the faults that belong to a place, and to a walk whose
  names are in order up to that place.
* `Stops.of_accepted`, `Stops.of_rejected`: what the checker says about the faults
  of a walk.
-/

namespace Scriptlet

/-! ### Walks -/

/-- A place of a program that running it comes by. -/
inductive Visit where
  /-- A variable is read or gets a value. -/
  | refer (name : Token)
  | declare (name : Token)
  /-- An operator is applied to an operand. -/
  | unary (op : UnaryOp) (operator : Token)
  /-- An operator is applied to two operands. -/
  | binary (op : BinaryOp) (operator : Token)
  /-- A line is written. -/
  | print
  | enter
  | leave

/-- The places of an expression: operands from left to right, then the operator,
and a value before the variable that gets it. -/
def Expr.walk : Expr → List Visit
  | .literal _ => []
  | .grouping inner => inner.walk
  | .unary op operator operand => operand.walk ++ [.unary op operator]
  | .binary op operator left right => left.walk ++ (right.walk ++ [.binary op operator])
  | .read name => [.refer name]
  | .assign name value => value.walk ++ [.refer name]

mutual

/-- The places of a statement: an initial value comes before the name that it is
for. -/
def Statement.walk : Statement → List Visit
  | .expression expr => expr.walk
  | .print expr => expr.walk ++ [.print]
  | .declare name none => [.declare name]
  | .declare name (some initial) => initial.walk ++ [.declare name]
  | .block body => .enter :: (Statement.walkAll body ++ [.leave])

/-- The places of statements one after another. -/
def Statement.walkAll : List Statement → List Visit
  | [] => []
  | statement :: rest => statement.walk ++ Statement.walkAll rest

end

/-! ### The checker -/

/-- The names known behind a place, from the innermost scope outward, or the fault
that the place is certain to end with. -/
def Visit.check (names : List (Finset String)) : Visit → Except Fault (List (Finset String))
  | .refer name =>
    if ∃ scope ∈ names, name.lexeme ∈ scope then .ok names else .error (.undefinedVariable name)
  | .declare name =>
    if name.lexeme ∈ names.headD ∅ then .error (.alreadyDefined name)
    else .ok (insert name.lexeme (names.headD ∅) :: names.tail)
  | .enter => .ok (∅ :: names)
  | .leave => .ok names.tail
  | .unary .. | .binary .. | .print => .ok names

/-- The names known behind a walk, or the fault at the first place whose name is
unknown or declared twice. -/
def check (names : List (Finset String)) : List Visit → Except Fault (List (Finset String))
  | [] => .ok names
  | visit :: walk =>
    match visit.check names with
    | .ok names => check names walk
    | .error fault => .error fault

variable {names names' names'' : List (Finset String)}

lemma check_append_of_ok {walk : List Visit} (h : check names walk = .ok names')
    (more : List Visit) : check names (walk ++ more) = check names' more := by
  induction walk generalizing names with
  | nil =>
      cases h
      rfl
  | cons visit walk ih =>
      rw [List.cons_append, check]
      rw [check] at h
      split at h
      · exact ih h
      · cases h

/-- A rejected walk has a first place to blame. -/
lemma exists_of_check_eq_error {walk : List Visit} {fault : Fault}
    (h : check names walk = .error fault) :
    ∃ before visit after known, walk = before ++ visit :: after ∧
      check names before = .ok known ∧ visit.check known = .error fault := by
  induction walk generalizing names with
  | nil => cases h
  | cons visit walk ih =>
      rw [check] at h
      split at h
      case h_1 next hvisit =>
          obtain ⟨before, place, after, known, rfl, hbefore, hplace⟩ := ih h
          exact ⟨visit :: before, place, after, known, rfl, by rw [check, hvisit]; exact hbefore,
            hplace⟩
      case h_2 hvisit => exact ⟨[], visit, walk, names, rfl, rfl, hvisit.trans h⟩

/-! ### Faults of places -/

/-- The fault of an operator whose operand does not fit. -/
def UnaryOp.typeFault? (op : UnaryOp) (operator : Token) : Option Fault :=
  match op with
  | .negate => some (.operandNotNumber operator)
  | .not => none

/-- The fault of an operator whose operands do not fit. -/
def BinaryOp.typeFault? (op : BinaryOp) (operator : Token) : Option Fault :=
  match op with
  | .add => some (.operandsNotNumbersOrStrings operator)
  | .sub | .mul | .div | .less | .greater | .lessEqual | .greaterEqual =>
    some (.operandsNotNumbers operator)
  | .equal | .notEqual => none

/-- The fault of a place where operands do not fit. -/
def Visit.typeFault? : Visit → Option Fault
  | .unary op operator => op.typeFault? operator
  | .binary op operator => op.typeFault? operator
  | _ => none

/-- A fault of an operator is no fault of a name. -/
lemma Visit.ne_scoping_of_typeFault? {visit : Visit} {fault : Fault}
    (h : visit.typeFault? = some fault) (name : Token) :
    fault ≠ .undefinedVariable name ∧ fault ≠ .alreadyDefined name := by
  cases visit with
  | unary op operator =>
      cases op with
      | negate =>
          cases h
          simp
      | not => cases h
  | binary op operator => cases op <;> cases h <;> simp
  | refer | declare | print | enter | leave => cases h

lemma UnaryOp.typeFault?_of_apply {op : UnaryOp} {operator : Token} {value : Value}
    {fault : Fault} (h : op.apply operator value = .error fault) :
    op.typeFault? operator = some fault := by
  cases op with
  | negate => cases value <;> cases h <;> rfl
  | not => cases h

lemma Value.eq_of_add {operator : Token} {left right : Value} {fault : Fault}
    (h : left.add operator right = .error fault) :
    fault = .operandsNotNumbersOrStrings operator := by
  cases left <;> cases right <;> cases h <;> rfl

lemma Value.eq_of_onNumbers {operator : Token} {f : Float → Float → Value} {left right : Value}
    {fault : Fault} (h : Value.onNumbers operator f left right = .error fault) :
    fault = .operandsNotNumbers operator := by
  cases left <;> cases right <;> cases h <;> rfl

lemma BinaryOp.typeFault?_of_apply {op : BinaryOp} {operator : Token} {left right : Value}
    {fault : Fault} (h : op.apply operator left right = .error fault) :
    op.typeFault? operator = some fault := by
  cases op with
  | add =>
      rw [Value.eq_of_add h]
      rfl
  | equal | notEqual => cases h
  | sub | mul | div | less | greater | lessEqual | greaterEqual =>
      rw [Value.eq_of_onNumbers h]
      rfl

/-- A fault with which running may end at a place, where output may fail for some
causes. -/
inductive Visit.Raises (fails : String → Prop) (names : List (Finset String)) :
    Visit → Fault → Prop where
  /-- The name is unknown, or declared twice. -/
  | scoping {visit : Visit} {fault : Fault} (h : visit.check names = .error fault) :
      Raises fails names visit fault
  /-- The operands do not fit the operator. -/
  | type {visit : Visit} {fault : Fault} (h : visit.typeFault? = some fault) :
      Raises fails names visit fault
  /-- The line cannot be written. -/
  | output {cause : String} (h : fails cause) : Raises fails names .print (.output cause)

/-- A place whose name is not in order has no other fault. -/
lemma Visit.Raises.eq_of_check {fails : String → Prop} {visit : Visit} {fault predicted : Fault}
    (h : visit.Raises fails names fault) (hcheck : visit.check names = .error predicted) :
    fault = predicted := by
  cases h with
  | scoping h => exact Except.error.inj (h.symm.trans hcheck)
  | type h =>
      cases visit with
      | unary | binary => cases hcheck
      | refer | declare | print | enter | leave => cases h
  | output => cases hcheck

/-- A walk may end with a fault at one of its places, and all names before that
place are in order. -/
def Stops (fails : String → Prop) (names : List (Finset String)) (walk : List Visit)
    (fault : Fault) : Prop :=
  ∃ before visit after known, walk = before ++ visit :: after ∧
    check names before = .ok known ∧ visit.Raises fails known fault

namespace Stops

variable {fails : String → Prop} {walk : List Visit} {fault : Fault}

lemma of_raises {visit : Visit} (h : visit.Raises fails names fault) :
    Stops fails names [visit] fault :=
  ⟨[], visit, [], names, rfl, rfl, h⟩

lemma append (h : Stops fails names walk fault) (more : List Visit) :
    Stops fails names (walk ++ more) fault := by
  obtain ⟨before, visit, after, known, rfl, hbefore, hvisit⟩ := h
  exact ⟨before, visit, after ++ more, known, by simp, hbefore, hvisit⟩

lemma behind (hwalk : check names walk = .ok names') {more : List Visit}
    (h : Stops fails names' more fault) : Stops fails names (walk ++ more) fault := by
  obtain ⟨before, visit, after, known, rfl, hbefore, hvisit⟩ := h
  refine ⟨walk ++ before, visit, after, known, by simp, ?_, hvisit⟩
  rw [check_append_of_ok hwalk, hbefore]

lemma mono {fails' : String → Prop} (himp : ∀ cause, fails cause → fails' cause)
    (h : Stops fails names walk fault) : Stops fails' names walk fault := by
  obtain ⟨before, visit, after, known, hwalk, hbefore, hvisit⟩ := h
  refine ⟨before, visit, after, known, hwalk, hbefore, ?_⟩
  cases hvisit with
  | scoping h => exact .scoping h
  | type h => exact .type h
  | output h => exact .output (himp _ h)

/-- A walk that is accepted ends with no fault of a name. -/
lemma of_accepted (hwalk : check names walk = .ok names') (h : Stops fails names walk fault) :
    (∃ visit ∈ walk, visit.typeFault? = some fault) ∨ ∃ cause, fails cause ∧ fault = .output cause := by
  obtain ⟨before, visit, after, known, rfl, hbefore, hvisit⟩ := h
  cases hvisit with
  | scoping hvisit =>
      rw [check_append_of_ok hbefore, check, hvisit] at hwalk
      cases hwalk
  | type hvisit => exact .inl ⟨visit, by simp, hvisit⟩
  | output hcause => exact .inr ⟨_, hcause, rfl⟩

/-- A walk that is rejected ends with the fault of the rejected place, unless it
ends earlier with one that is no fault of a name. -/
lemma of_rejected {before after : List Visit} {visit : Visit} {known : List (Finset String)}
    {predicted : Fault} (hbefore : check names before = .ok known)
    (hvisit : visit.check known = .error predicted)
    (h : Stops fails names (before ++ visit :: after) fault) :
    fault = predicted ∨ (∃ earlier ∈ before, earlier.typeFault? = some fault) ∨
      ∃ cause, fails cause ∧ fault = .output cause := by
  obtain ⟨before', visit', after', known', hwalk, hbefore', hvisit'⟩ := h
  have same (hb : before' = before) (hv : visit' = visit) : fault = predicted := by
    subst hb hv
    cases hbefore.symm.trans hbefore'
    exact hvisit'.eq_of_check hvisit
  obtain ⟨between, hbetween, hrest⟩ | ⟨between, hbetween, hrest⟩ :=
    List.append_eq_append_iff.1 hwalk
  · cases between with
    | nil => exact .inl (same (by simpa using hbetween) (List.cons.inj hrest).1.symm)
    | cons place between =>
        -- it cannot get past the rejected place
        obtain ⟨rfl, -⟩ := List.cons.inj hrest
        rw [hbetween, check_append_of_ok hbefore, check, hvisit] at hbefore'
        cases hbefore'
  · cases between with
    | nil => exact .inl (same (by simpa using hbetween.symm) (List.cons.inj hrest).1)
    | cons place between =>
        -- it ends within what the checker has accepted
        obtain ⟨rfl, -⟩ := List.cons.inj hrest
        exact .inr (of_accepted hbefore ⟨before', visit', between, known', hbetween, hbefore', hvisit'⟩)

end Stops

end Scriptlet
