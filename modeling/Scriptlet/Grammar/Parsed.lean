import Scriptlet.Grammar.Complaint

/-!
How a rule of the grammar ends.

A rule starts before a number of tokens and either reads a phrase, which takes
at least one of them, or stops at a token that does not fit. Either way it may
have noted complaints on which it went on. That a phrase takes a token is part
of the type, so that rules may call each other on what is left.

* `Parsed`: the outcome of a rule.
* `Parsed.map`, `Parsed.after`, `Parsed.closedBy`: outcomes from outcomes.
-/

namespace Scriptlet

/-- The outcome of a rule that started before `n` tokens. -/
inductive Parsed (n : Nat) (α : Type) where
  /-- The rule has read a phrase and leaves `rest`. -/
  | done (value : α) (notes : List Complaint) (rest : List Token) (shorter : rest.length < n)
  /-- The rule has stopped before `rest`. -/
  | failed (cause : Complaint) (notes : List Complaint) (rest : List Token)
      (within : rest.length ≤ n)

namespace Parsed

/-- Another meaning for the phrase that was read. -/
def map {n : Nat} {α β : Type} (f : α → β) : Parsed n α → Parsed n β
  | done value notes rest shorter => done (f value) notes rest shorter
  | failed cause notes rest within => failed cause notes rest within

/-- The outcome of a rule as that of a larger one, which started earlier and
had already noted something. -/
def after {n m : Nat} {α : Type} (earlier : List Complaint) (h : n ≤ m) :
    Parsed n α → Parsed m α
  | done value notes rest shorter =>
    done value (earlier ++ notes) rest (Nat.lt_of_lt_of_le shorter h)
  | failed cause notes rest within =>
    failed cause (earlier ++ notes) rest (Nat.le_trans within h)

/-- The phrase must be followed by a symbol, which belongs to it. The end of
the input is blamed if nothing follows. -/
def closedBy {n : Nat} {α : Type} (stop : Token) (symbol : Symbol) (missing : Expectation) :
    Parsed n α → Parsed n α
  | done _ notes [] _ => failed ⟨stop, missing⟩ notes [] (Nat.zero_le n)
  | done value notes (token :: rest) shorter =>
    if token.isSymbol symbol then done value notes rest (Nat.lt_of_succ_lt shorter)
    else failed ⟨token, missing⟩ notes (token :: rest) (Nat.le_of_lt shorter)
  | failed cause notes rest within => failed cause notes rest within

end Parsed

end Scriptlet
