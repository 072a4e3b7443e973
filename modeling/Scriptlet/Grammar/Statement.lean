import Scriptlet.Grammar.Expression

/-!
The grammar of statements, and how reading goes on after a mistake.

    declaration := "var" identifier ("=" expression)? ";"
                 | "print" expression ";"
                 | "{" declaration* "}"
                 | expression ";"

A declaration that does not fit the grammar is reported and left out. Reading
goes on behind the next semicolon or before the next word that opens a
statement.

* `Grammar.resume`: where reading goes on after a mistake.
* `Grammar.statement`: reads one declaration that is well formed.
* `Grammar.declaration`: reads one declaration or recovers from it.
* `Grammar.block`, `Grammar.declarations`: the declarations of a block, and of
  a whole program.
-/

namespace Scriptlet.Grammar

/-! ### Recovery -/

/-- The tokens from the first one on that follows a semicolon or opens a
statement, where `passed` stands before the tokens. -/
def boundary (passed : Token) : List Token → List Token
  | [] => []
  | token :: rest =>
    if passed.isSymbol .semicolon || token.kind.startsStatement then token :: rest
    else boundary token rest

/-- Where reading goes on after a mistake at the first token, which is always
passed over. -/
def resume : List Token → List Token
  | [] => []
  | token :: rest => boundary token rest

theorem length_boundary_le (passed : Token) (tokens : List Token) :
    (boundary passed tokens).length ≤ tokens.length := by
  induction tokens generalizing passed with
  | nil => simp [boundary]
  | cons token rest ih =>
      rw [boundary]
      split
      · simp
      · exact Nat.le_succ_of_le (ih token)

/-- Recovery passes over a token if there is one. -/
theorem length_resume_lt {n : Nat} (tokens : List Token) (h : tokens.length ≤ n + 1) :
    (resume tokens).length < n + 1 := by
  cases tokens with
  | nil => simp [resume]
  | cons token rest =>
      have := length_boundary_le token rest
      simp only [resume, List.length_cons] at h ⊢
      omega

/-! ### Statements -/

/-- A token that is left in place leaves its tokens as they are. -/
theorem length_cons_lt (token : Token) (rest : List Token) :
    (token :: rest).length < (token :: rest).length + 1 := Nat.lt_succ_self _

/-- The declaration of a variable, from behind its name up to the semicolon. -/
def initializer (stop : Token) (name : Token) (tokens : List Token) :
    Parsed (tokens.length + 1) Statement :=
  match tokens with
  | [] => .done (.declare name none) [] [] Nat.zero_lt_one
  | equals :: rest =>
    if equals.isSymbol .equal then
      ((expression stop rest).map fun initial => .declare name (some initial)).after []
        (Nat.le_succ_of_le (Nat.le_succ _))
    else .done (.declare name none) [] (equals :: rest) (length_cons_lt equals rest)

/-- A declaration behind `var`. -/
def variableDeclaration (stop : Token) (tokens : List Token) :
    Parsed (tokens.length + 1) Statement :=
  match tokens with
  | [] => .failed ⟨stop, .variableName⟩ [] [] (Nat.le_succ _)
  | name :: rest =>
    if name.kind = .identifier then
      ((initializer stop name rest).closedBy stop .semicolon .semicolonAfterDeclaration).after []
        (Nat.le_succ _)
    else .failed ⟨name, .variableName⟩ [] (name :: rest) (Nat.le_succ _)

/-- A declaration that was read, or was left out after a mistake. -/
structure Declared (n : Nat) where
  statement? : Option Statement
  complaints : List Complaint
  rest : List Token
  shorter : rest.length < n

/-- Recovers from a declaration that does not fit the grammar. -/
def recover {n : Nat} : Parsed (n + 1) Statement → Declared (n + 1)
  | .done statement notes rest shorter => ⟨some statement, notes, rest, shorter⟩
  | .failed cause notes rest within =>
    ⟨none, notes ++ [cause], resume rest, length_resume_lt rest within⟩

mutual

/-- A declaration or statement that starts with `token`. -/
def statement (stop : Token) (token : Token) (rest : List Token) :
    Parsed (rest.length + 1) Statement :=
  match token.kind with
  | .keyword .var => variableDeclaration stop rest
  | .keyword .print =>
    (((expression stop rest).map .print).closedBy stop .semicolon .semicolonAfterValue).after []
      (Nat.le_succ _)
  | .symbol .leftBrace => (block stop rest).map .block
  | _ =>
    ((expression stop (token :: rest)).map .expression).closedBy stop .semicolon
      .semicolonAfterExpression
termination_by 2 * (rest.length + 1)
decreasing_by omega

/-- The declarations of a block and its closing brace. -/
def block (stop : Token) (tokens : List Token) : Parsed (tokens.length + 1) (List Statement) :=
  match tokens with
  | [] => .failed ⟨stop, .closingBrace⟩ [] [] (Nat.le_succ _)
  | token :: rest =>
    if token.isSymbol .rightBrace then .done [] [] rest (Nat.lt_succ_of_lt (Nat.lt_succ_self _))
    else
      match recover (statement stop token rest) with
      | ⟨statement?, complaints, rest', shorter⟩ =>
        ((block stop rest').map (statement?.toList ++ ·)).after complaints
          (Nat.le_succ_of_le shorter)
termination_by 2 * tokens.length + 1
decreasing_by
  · rw [List.length_cons]; omega
  · rw [List.length_cons]; omega

end

/-- A declaration that starts with `token`, or what is left after recovery. -/
def declaration (stop : Token) (token : Token) (rest : List Token) :
    Declared (rest.length + 1) :=
  recover (statement stop token rest)

/-- All declarations, with the complaints about those left out. -/
def declarations (stop : Token) (tokens : List Token) : List Statement × List Complaint :=
  match tokens with
  | [] => ([], [])
  | token :: rest =>
    match declaration stop token rest with
    | ⟨statement?, complaints, rest', _⟩ =>
      let later := declarations stop rest'
      (statement?.toList ++ later.1, complaints ++ later.2)
termination_by tokens.length
decreasing_by assumption

end Scriptlet.Grammar
