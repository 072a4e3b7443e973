import Mathlib.Tactic.Lemma
import Scriptlet.Grammar.Statement

/-!
How the rules of the grammar end.

A rule returns its outcome together with a bound on what it leaves. Here the
bound is forgotten: an `Ending` is a phrase that was read, or a token at which
the rule got stuck. Rules then follow one another by `Ending.bind`.

* `Ending`, `Parsed.ending`: an outcome without its bound.
* `Ending.bind`, `Ending.close`: one rule behind another, and a symbol that has
  to follow a phrase.
* `Ending.bind_eq_read_iff`: a phrase is read behind another one exactly if both
  are read, and the notes are those of both.
* `Parsed.ending_map`, `Parsed.ending_after`, `Parsed.ending_closedBy`: the
  outcomes that are made from outcomes, in these terms.
-/

namespace Scriptlet

/-- How a rule ends. -/
inductive Ending (α : Type) where
  /-- A phrase was read, and `rest` is left. -/
  | read (value : α) (notes : List Complaint) (rest : List Token)
  /-- The rule got stuck before `rest`. -/
  | stuck (cause : Complaint) (notes : List Complaint) (rest : List Token)

namespace Ending

variable {α β : Type}

/-- The ending of a rule when something was noted before it. -/
def after (earlier : List Complaint) : Ending α → Ending α
  | read value notes rest => read value (earlier ++ notes) rest
  | stuck cause notes rest => stuck cause (earlier ++ notes) rest

/-- A rule that goes on with what another one has read and left. -/
def bind (e : Ending α) (next : α → List Token → Ending β) : Ending β :=
  match e with
  | read value notes rest => (next value rest).after notes
  | stuck cause notes rest => stuck cause notes rest

/-- Goes on with a phrase that has to be followed by a symbol. -/
def close (stop : Token) (symbol : Symbol) (missing : Expectation) (value : α) :
    List Token → Ending α
  | [] => stuck ⟨stop, missing⟩ [] []
  | token :: rest =>
    if token.isSymbol symbol then read value [] rest
    else stuck ⟨token, missing⟩ [] (token :: rest)

/-- The tokens that are left. -/
def rest : Ending α → List Token
  | read _ _ rest => rest
  | stuck _ _ rest => rest

@[simp]
lemma after_nil (e : Ending α) : e.after [] = e := by
  cases e <;> rfl

@[simp]
lemma bind_read (value : α) (notes : List Complaint) (rest : List Token)
    (next : α → List Token → Ending β) :
    (read value notes rest).bind next = (next value rest).after notes := rfl

@[simp]
lemma bind_stuck (cause : Complaint) (notes : List Complaint) (rest : List Token)
    (next : α → List Token → Ending β) :
    (stuck cause notes rest : Ending α).bind next = stuck cause notes rest := rfl

@[simp]
lemma rest_after (earlier : List Complaint) (e : Ending α) : (e.after earlier).rest = e.rest := by
  cases e <;> rfl

@[simp]
lemma after_after (earlier later : List Complaint) (e : Ending α) :
    (e.after later).after earlier = e.after (earlier ++ later) := by
  cases e <;> simp [after]

lemma bind_after (earlier : List Complaint) (e : Ending α) (next : α → List Token → Ending β) :
    (e.after earlier).bind next = (e.bind next).after earlier := by
  cases e with
  | read value notes rest => rw [after, bind_read, bind_read, after_after]
  | stuck cause notes rest => rfl

lemma bind_assoc {γ : Type} (e : Ending α) (f : α → List Token → Ending β)
    (g : β → List Token → Ending γ) :
    (e.bind f).bind g = e.bind fun value rest => (f value rest).bind g := by
  cases e with
  | read value notes rest => rw [bind_read, bind_read, bind_after]
  | stuck cause notes rest => rfl

lemma after_eq_read_iff {earlier notes : List Complaint} {e : Ending α} {value : α}
    {rest : List Token} :
    e.after earlier = read value notes rest ↔
      ∃ later, e = read value later rest ∧ notes = earlier ++ later := by
  cases e <;> grind [after]

/-- Two rules, one behind the other, read a phrase exactly if both do. -/
lemma bind_eq_read_iff {e : Ending α} {next : α → List Token → Ending β} {value : β}
    {notes : List Complaint} {rest : List Token} :
    e.bind next = read value notes rest ↔
      ∃ first earlier middle later, e = read first earlier middle ∧
        next first middle = read value later rest ∧ notes = earlier ++ later := by
  cases e with
  | read first earlier middle =>
      rw [bind_read, after_eq_read_iff]
      constructor
      · rintro ⟨later, hnext, hnotes⟩
        exact ⟨first, earlier, middle, later, rfl, hnext, hnotes⟩
      · rintro ⟨_, _, _, later, he, hnext, hnotes⟩
        cases he
        exact ⟨later, hnext, hnotes⟩
  | stuck cause earlier middle => simp

/-- Without notes, the two rules are without notes, too. -/
lemma bind_eq_read_nil_iff {e : Ending α} {next : α → List Token → Ending β} {value : β}
    {rest : List Token} :
    e.bind next = read value [] rest ↔
      ∃ first middle, e = read first [] middle ∧ next first middle = read value [] rest := by
  rw [bind_eq_read_iff]
  constructor
  · rintro ⟨first, earlier, middle, later, he, hnext, hnotes⟩
    obtain ⟨rfl, rfl⟩ := List.append_eq_nil_iff.mp hnotes.symm
    exact ⟨first, middle, he, hnext⟩
  · rintro ⟨first, middle, he, hnext⟩
    exact ⟨first, [], middle, [], he, hnext, rfl⟩

lemma close_eq_read_iff {stop : Token} {symbol : Symbol} {missing : Expectation}
    {value value' : α} {tokens : List Token} {notes : List Complaint} {rest : List Token} :
    close stop symbol missing value tokens = read value' notes rest ↔
      ∃ token, tokens = token :: rest ∧ token.kind = .symbol symbol ∧ value' = value ∧
        notes = [] := by
  cases tokens with
  | nil => simp [close]
  | cons token tokens => grind [close, Token.isSymbol]

/-- A phrase and the symbol behind it are read without a note exactly if the
phrase is, and the symbol follows. -/
lemma bind_close_eq_read_nil_iff {stop : Token} {symbol : Symbol} {missing : Expectation}
    {e : Ending α} {f : α → β} {value : β} {rest : List Token} :
    (e.bind fun first => close stop symbol missing (f first)) = read value [] rest ↔
      ∃ first token, e = read first [] (token :: rest) ∧ token.kind = .symbol symbol ∧
        value = f first := by
  simp only [bind_eq_read_nil_iff, close_eq_read_iff]
  grind

end Ending

namespace Parsed

variable {n m : Nat} {α β : Type}

/-- The outcome of a rule without its bound. -/
def ending : Parsed n α → Ending α
  | done value notes rest _ => .read value notes rest
  | failed cause notes rest _ => .stuck cause notes rest

@[simp]
lemma ending_done (value : α) (notes : List Complaint) (rest : List Token)
    (shorter : rest.length < n) :
    (done value notes rest shorter).ending = .read value notes rest := rfl

@[simp]
lemma ending_failed (cause : Complaint) (notes : List Complaint) (rest : List Token)
    (within : rest.length ≤ n) :
    (failed cause notes rest within : Parsed n α).ending = .stuck cause notes rest := rfl

@[simp]
lemma ending_map (f : α → β) (p : Parsed n α) :
    (p.map f).ending = p.ending.bind fun value rest => .read (f value) [] rest := by
  cases p <;> simp [map, Ending.after]

@[simp]
lemma ending_after (earlier : List Complaint) (h : n ≤ m) (p : Parsed n α) :
    (p.after earlier h).ending = p.ending.after earlier := by
  cases p <;> rfl

@[simp]
lemma ending_closedBy (stop : Token) (symbol : Symbol) (missing : Expectation)
    (p : Parsed n α) :
    (p.closedBy stop symbol missing).ending = p.ending.bind (Ending.close stop symbol missing) := by
  cases p with
  | failed => rfl
  | done value notes rest shorter =>
      cases rest with
      | nil => simp [closedBy, Ending.close, Ending.after]
      | cons token rest =>
          rw [closedBy, ending_done, Ending.bind_read, Ending.close]
          split <;> simp [Ending.after]

end Parsed

end Scriptlet
