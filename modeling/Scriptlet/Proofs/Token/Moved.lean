import Scriptlet.Diagnostic
import Scriptlet.Proofs.Source.Marks

/-!
Tokens and diagnostics at other positions.

A source that is put below another one keeps its tokens, and each of them moves down
by the same number of lines.

* `Token.moved`, `Token.content`: the token at another position, and the token without one.
* `Position.below`, `Diagnostic.below`: further down by a number of lines.
* `Position.behind_below`: text on new lines moves down by the lines above it.
-/

namespace Scriptlet

/-! ### Tokens -/

/-- The token at another position. -/
def Token.moved (move : Position → Position) (t : Token) : Token :=
  { t with position := move t.position }

namespace Token

variable (move : Position → Position) (t : Token)

@[simp]
lemma kind_moved : (t.moved move).kind = t.kind := rfl

@[simp]
lemma lexeme_moved : (t.moved move).lexeme = t.lexeme := rfl

@[simp]
lemma isEnd_moved : (t.moved move).isEnd = t.isEnd := rfl

@[simp]
lemma isSymbol_moved (s : Symbol) : (t.moved move).isSymbol s = t.isSymbol s := rfl

/-- What a token is wherever it stands: its kind, its text and its literal. -/
def content (t : Token) : Kind × String × Option Literal := (t.kind, t.lexeme, t.literal)

end Token

/-! ### Further down -/

/-- The position a number of lines further down. -/
def Position.below (lines : Nat) (p : Position) : Position := ⟨p.line + lines, p.column⟩

/-- The diagnostic a number of lines further down. -/
def Diagnostic.below (lines : Nat) : Diagnostic → Diagnostic
  | malformed line column location message => malformed (line + lines) column location message
  | fault position message => fault (position.map (·.below lines)) message

/-- A run of characters ends before the first other one, whatever follows. -/
lemma takeWhile_append_cons {p : Char → Bool} {c : Char} (hc : p c = false)
    (before rest : List Char) :
    (before ++ c :: rest).takeWhile p = before.takeWhile p := by
  induction before with
  | nil => rw [List.nil_append, List.takeWhile_cons_of_neg (by simp [hc]), List.takeWhile_nil]
  | cons d before ih =>
      rw [List.cons_append, List.takeWhile_cons, List.takeWhile_cons, ih]

/-- What follows the run, then, is what follows it in the text before. -/
lemma dropWhile_append_cons {p : Char → Bool} {c : Char} (hc : p c = false)
    (before rest : List Char) :
    (before ++ c :: rest).dropWhile p = before.dropWhile p ++ c :: rest := by
  induction before with
  | nil => rw [List.nil_append, List.dropWhile_cons_of_neg (by simp [hc]), List.dropWhile_nil,
      List.nil_append]
  | cons d before ih =>
      rw [List.cons_append, List.dropWhile_cons, List.dropWhile_cons, ih]
      split <;> rfl

/-- Text that starts on a new line moves down by the lines above it. -/
lemma Position.behind_below (above text : List Char) :
    behind (above ++ '\n' :: text) = (behind text).below (1 + above.count '\n') := by
  have hline : (above ++ '\n' :: text).rtakeWhile (· != '\n') = text.rtakeWhile (· != '\n') := by
    rw [List.rtakeWhile, List.reverse_append, List.reverse_cons, List.append_assoc,
      List.singleton_append, takeWhile_append_cons (by decide), List.rtakeWhile]
  have hcount : (above ++ '\n' :: text).count '\n' =
      text.count '\n' + (1 + above.count '\n') := by
    rw [List.count_append, List.count_cons_self]
    omega
  rw [behind, hline, hcount, ← Nat.add_assoc]
  rfl

end Scriptlet
