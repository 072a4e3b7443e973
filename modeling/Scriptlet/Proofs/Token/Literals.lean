import Mathlib.Data.Nat.Digits.Defs
import Scriptlet.Proofs.Number.Floats
import Scriptlet.Proofs.Token.Rescan

/-!
The literals of scanned tokens.

A token is scanned only where its text has the form of its kind, so a number token is made of
digits and a string token stands between quotes. Hence the literal can be read off the text, and
nothing can go wrong when it is.

* `Lexical.Denotes`: the number that digits write.
* `Lexical.Denotes.isNearest`: what is read of digits is the nearest float.
* `shape_of_mem_scan`: a scanned token has the form of its kind.
* `number_of_mem_scan`, `string_of_mem_scan`: the literals of numbers and of strings.
* `scan_quoted`: any text between quotes is scanned as a string with this text.
-/

namespace Scriptlet

/-! ### Numbers that digits write -/

namespace Lexical

/-- The number that a row of digits writes, by the weights of its places. -/
def digitsNumber (digits : List Char) : Nat :=
  Nat.ofDigits 10 (digits.reverse.map fun c => c.toNat - '0'.toNat)

/-- The number that digits write, with a point among them or without one. -/
inductive Denotes : List Char → ℚ → Prop where
  | whole {digits : List Char} (h : Run Digit digits) : Denotes digits (digitsNumber digits)
  | decimal {digits fraction : List Char} (h : Run Digit digits) (h' : Run Digit fraction) :
      Denotes (digits ++ '.' :: fraction)
        (digitsNumber digits + digitsNumber fraction / 10 ^ fraction.length)

lemma digitsNumber_eq (digits : List Char) : digitsNumber digits = Decimal.digitsValue digits := by
  rw [digitsNumber, Nat.ofDigits_eq_foldr, List.foldr_map, List.foldr_reverse,
    Decimal.digitsValue]
  congr 1
  funext value c
  exact Nat.add_comm _ _

lemma Run.isDigit {digits : List Char} (h : Run Digit digits) : ∀ c ∈ digits, c.isDigit = true :=
  fun c hc => isDigit_iff.2 (h.2 c hc)

/-- Reading digits cannot fail. -/
lemma Denotes.read?_eq {text : List Char} {value : ℚ} (h : Denotes text value) :
    Decimal.read? text = some (Decimal.read text) := by
  cases h with
  | whole h => exact Decimal.read?_whole h.isDigit h.1
  | decimal h h' => exact Decimal.read?_pointed h.isDigit h.1 h'.isDigit

/-- What is read of digits is the number that they write. -/
lemma Denotes.eq_read {text : List Char} {value : ℚ} (h : Denotes text value) :
    value = (Decimal.read text).unscaled / (10 ^ (Decimal.read text).places : Nat) := by
  cases h with
  | whole h =>
      rw [Decimal.read_whole h.isDigit, digitsNumber_eq]
      simp
  | @decimal digits fraction h h' =>
      rw [Decimal.read_pointed h.isDigit, digitsNumber_eq, digitsNumber_eq,
        Decimal.digitsValue_append]
      have hpow : ((10 : ℚ) ^ fraction.length) ≠ 0 := pow_ne_zero _ (by norm_num)
      push_cast
      rw [add_div, mul_div_cancel_right₀ _ hpow]

/-- **Digits are read as the nearest float**, which is not negative. -/
theorem Denotes.isNearest {text : List Char} {value : ℚ} (h : Denotes text value) :
    Binary64.IsNearest value (Binary64.pattern (Decimal.read text).toFloat) ∧
      Binary64.isNegative (Decimal.read text).toFloat = false := by
  have hnearest := Binary64.isNearest_nearest (Decimal.read text).unscaled
    (Nat.pow_pos (by decide) : 0 < 10 ^ (Decimal.read text).places)
  rw [← h.eq_read] at hnearest
  have hle := hnearest.le_infinity
  rw [Decimal.toFloat]
  exact ⟨(Binary64.pattern_ofPattern hle).symm ▸ hnearest, Binary64.isNegative_ofPattern hle⟩

end Lexical

/-! ### Scanned tokens -/

open Lexical

/-- A scanned token has the form of its kind. -/
lemma shape_of_mem_scan {source : String} {token : Token} (h : token ∈ (scan source).tokens) :
    token.kind = .endOfInput ∨ ∃ rest, Shape (.token token.kind) token.lexeme.toList rest := by
  have hmem : (token.kind, token.lexeme) ∈ (scan source).tokens.map fun t => (t.kind, t.lexeme) :=
    List.mem_map_of_mem h
  rw [scan, tokens_ofSegments, List.mem_append, List.mem_singleton, List.mem_filterMap] at hmem
  obtain ⟨segment, hsegment, hlexeme⟩ | hend := hmem
  · rw [lexeme?, Option.map_eq_some_iff] at hlexeme
    obtain ⟨kind, hkind, hpair⟩ := hlexeme
    obtain ⟨hkind', hlexeme'⟩ := Prod.mk.inj hpair
    have hrule : segment.rule = .token kind := by
      cases hsegmentRule : segment.rule <;> rw [hsegmentRule] at hkind <;> cases hkind
      rfl
    rw [← hkind', ← hlexeme', String.toList_ofList]
    exact .inr (Segment.shape_of_mem_cut segment hsegment kind hrule)
  · exact .inl (congrArg Prod.fst hend)

lemma literal_of_mem_scan {source : String} {token : Token} (h : token ∈ (scan source).tokens) :
    token.literal = Literal.ofText? token.kind token.lexeme.toList :=
  literal_of_mem_ofSegments h

/-- **The literal of a number token** is the float nearest to what its digits write. -/
theorem number_of_mem_scan {source : String} {token : Token} (h : token ∈ (scan source).tokens)
    (hkind : token.kind = .number) :
    ∃ value x, Denotes token.lexeme.toList value ∧ token.literal = some (.number x) ∧
      Binary64.IsNearest value (Binary64.pattern x) ∧ Binary64.isNegative x = false := by
  have hdenotes : ∃ value, Denotes token.lexeme.toList value := by
    obtain hend | ⟨rest, hshape⟩ := shape_of_mem_scan h
    · rw [hkind] at hend
      cases hend
    · rw [hkind] at hshape
      generalize token.lexeme.toList = text at hshape
      cases hshape with
      | whole h => exact ⟨_, .whole h⟩
      | decimal h h' => exact ⟨_, .decimal h h'⟩
  obtain ⟨value, hvalue⟩ := hdenotes
  refine ⟨value, _, hvalue, ?_, hvalue.isNearest⟩
  rw [literal_of_mem_scan h, hkind, Literal.ofText?, hvalue.read?_eq, Option.map_some]

/-- The text between quotes can be cut out of a string, whatever bytes it is made of. -/
lemma Literal.ofText?_quoted (body : List Char) :
    ofText? .string ('"' :: body ++ ['"']) = some (.string (String.ofList body)) := by
  have hlength : byteLength ('"' :: body ++ ['"']) - 1 = byteLength ['"'] + byteLength body := by
    rw [byteLength_append]
    rfl
  rw [ofText?, hlength]
  exact congrArg (Option.map _) (slice?_append ['"'] body ['"'])

/-- **The literal of a string token** is what stands between its quotes. -/
theorem string_of_mem_scan {source : String} {token : Token} (h : token ∈ (scan source).tokens)
    (hkind : token.kind = .string) :
    ∃ body, '"' ∉ body.toList ∧ token.lexeme = "\"" ++ body ++ "\"" ∧
      token.literal = some (.string body) := by
  obtain hend | ⟨rest, hshape⟩ := shape_of_mem_scan h
  · rw [hkind] at hend
    cases hend
  · rw [hkind] at hshape
    have hliteral := literal_of_mem_scan h
    rw [hkind] at hliteral
    generalize htext : token.lexeme.toList = text at hshape hliteral
    cases hshape with
    | @string body _ hbody =>
        refine ⟨String.ofList body, by rwa [String.toList_ofList], ?_, ?_⟩
        · rw [← String.toList_inj, htext]
          simp
        · rw [hliteral, Literal.ofText?_quoted]

/-- Numbers and strings, and no other tokens, have literals. -/
lemma isSome_literal_iff {source : String} {token : Token} (h : token ∈ (scan source).tokens) :
    token.literal.isSome ↔ token.kind = .number ∨ token.kind = .string := by
  constructor
  · intro hliteral
    rw [literal_of_mem_scan h] at hliteral
    revert hliteral
    cases token.kind <;> simp [Literal.ofText?]
  · rintro (hkind | hkind)
    · obtain ⟨_, _, -, hliteral, -⟩ := number_of_mem_scan h hkind
      rw [hliteral, Option.isSome_some]
    · obtain ⟨_, -, -, hliteral⟩ := string_of_mem_scan h hkind
      rw [hliteral, Option.isSome_some]

/-- Any text without a quote is the literal of a string token. -/
theorem scan_quoted {body : String} (h : '"' ∉ body.toList) :
    ∃ position position', scan ("\"" ++ body ++ "\"") =
      ⟨[⟨.string, "\"" ++ body ++ "\"", some (.string body), position⟩,
        .endOfInput position'], []⟩ := by
  have hsource : ("\"" ++ body ++ "\"").toList = '"' :: (body.toList ++ ['"']) := by simp
  have hcut : Segment.cut ("\"" ++ body ++ "\"").toList =
      [⟨.token .string, '"' :: body.toList ++ ['"']⟩] := by
    rw [hsource, Segment.cut, first_quote, Segment.string_of_closed h, Segment.cut]
  have hlexeme : String.ofList ('"' :: body.toList ++ ['"']) = "\"" ++ body ++ "\"" := by
    rw [← String.toList_inj, String.toList_ofList, hsource, List.cons_append]
  have hliteral : Literal.ofText? .string ('"' :: body.toList ++ ['"']) = some (.string body) := by
    rw [Literal.ofText?_quoted, String.ofList_toList]
  simp only [scan, hcut, Scan.ofSegments, Scan.prepend, Token.ofText, hlexeme, hliteral]
  exact ⟨_, _, rfl⟩

end Scriptlet
