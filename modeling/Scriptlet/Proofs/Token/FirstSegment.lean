import Mathlib.Data.List.TakeWhile
import Scriptlet.Proofs.Token.Lexical

/-!
The first segment of a source against the lexical rules.

Each rule is recognised by the first character of its text, so that a match at
the start of a source can be compared with the one segment that the scanner
reads there. It is that segment, or it is shorter.

* `matches_first`: the first segment is a match of its rule.
* `Matches.within`: a match is the first segment of its source or shorter.
-/

namespace Scriptlet.Lexical

open Segment (first number string throughCommentEnd shortSymbol slash isBlank isWordStart
  isWordPart wordKind)

/-! ### Which branch reads a character -/

lemma not_isBlank_of_isWordPart {c : Char} (h : isWordPart c = true) : isBlank c = false := by
  rw [Bool.eq_false_iff, ne_eq, isBlank_iff]
  rintro (rfl | rfl | rfl | rfl) <;> exact absurd h (by decide)

lemma ne_of_isWordPart {c d : Char} (h : isWordPart c = true) (hd : isWordPart d = false) :
    c ≠ d := by
  rintro rfl
  rw [hd] at h
  contradiction

lemma not_isDigit_of_isWordStart {c : Char} (h : isWordStart c = true) : c.isDigit = false := by
  rw [Bool.eq_false_iff, ne_eq, isDigit_iff]
  rintro ⟨hzero, hnine⟩
  have hnine : c.toNat ≤ 57 := hnine
  rcases isWordStart_iff.1 h with ⟨hA, -⟩ | ⟨ha, -⟩ | rfl
  · have hA : 65 ≤ c.toNat := hA
    omega
  · have ha : 97 ≤ c.toNat := ha
    omega
  · exact absurd hnine (by decide)

lemma first_of_isBlank {c : Char} (rest : List Char) (h : isBlank c = true) :
    first c rest = (⟨.blank, (c :: rest).takeWhile isBlank⟩, (c :: rest).dropWhile isBlank) := by
  rw [first, if_pos h, List.takeWhile_cons_of_pos h, List.dropWhile_cons_of_pos h]

lemma first_newline (rest : List Char) : first '\n' rest = (⟨.newline, ['\n']⟩, rest) := rfl

lemma first_quote (rest : List Char) : first '"' rest = string rest := rfl

lemma first_slash (rest : List Char) : first '/' rest = slash rest := rfl

lemma first_of_isDigit {c : Char} (rest : List Char) (h : c.isDigit = true) :
    first c rest = (⟨.token .number, (number (c :: rest)).1⟩, (number (c :: rest)).2) := by
  have hpart : isWordPart c = true := by simp [isWordPart, h]
  rw [first, if_neg (by simp [not_isBlank_of_isWordPart hpart]),
    if_neg (ne_of_isWordPart hpart (by decide)), if_neg (ne_of_isWordPart hpart (by decide)),
    if_neg (ne_of_isWordPart hpart (by decide)), if_pos h]

lemma first_of_isWordStart {c : Char} (rest : List Char) (h : isWordStart c = true) :
    first c rest = (⟨.token (wordKind (c :: rest.takeWhile isWordPart)),
      c :: rest.takeWhile isWordPart⟩, rest.dropWhile isWordPart) := by
  have hpart : isWordPart c = true := by simp [isWordPart, h]
  rw [first, if_neg (by simp [not_isBlank_of_isWordPart hpart]),
    if_neg (ne_of_isWordPart hpart (by decide)), if_neg (ne_of_isWordPart hpart (by decide)),
    if_neg (ne_of_isWordPart hpart (by decide)),
    if_neg (by simp [not_isDigit_of_isWordStart h]), if_pos h]

lemma first_of_symbol {s : Symbol} {c : Char} {more : List Char} (rest : List Char)
    (h : s.chars = c :: more) (hslash : c ≠ '/') : first c rest = Segment.symbol c rest := by
  cases s with
  | slash =>
      cases h
      exact absurd rfl hslash
  | _ =>
      cases h
      rfl

lemma keyword_word (k : Keyword) : Word k.chars := by
  have h : ∃ c more, k.chars = c :: more ∧ isWordStart c = true ∧ more.all isWordPart = true := by
    cases k <;> exact ⟨_, _, rfl, by decide, by decide⟩
  obtain ⟨c, more, hchars, hstart, hmore⟩ := h
  exact ⟨c, more, hchars, isWordStart_iff.1 hstart,
    fun d hd => isWordPart_iff.1 (List.all_eq_true.1 hmore d hd)⟩

/-! ### The end of a comment -/

lemma throughCommentEnd_cons {c : Char} {source : List Char}
    (h : ¬ ['*', '/'] <+: c :: source) :
    throughCommentEnd (c :: source) =
      (c :: (throughCommentEnd source).1, (throughCommentEnd source).2) := by
  rw [throughCommentEnd]
  rintro rest rfl rfl
  exact h ⟨rest, rfl⟩

/-- A comment without an end takes all of the source. -/
lemma throughCommentEnd_of_open {body : List Char} (h : ¬ ['*', '/'] <:+: body) :
    throughCommentEnd body = (body, []) := by
  induction body with
  | nil => rfl
  | cons c body ih =>
      have hbody : ¬ ['*', '/'] <:+: body := fun hin => h (List.infix_cons hin)
      rw [throughCommentEnd_cons fun hpre => h hpre.isInfix, ih hbody]

/-- A comment ends with the first `*/`. -/
lemma throughCommentEnd_of_closed {body : List Char} (rest : List Char)
    (h : ¬ ['*', '/'] <:+: body ++ ['*']) :
    throughCommentEnd (body ++ '*' :: '/' :: rest) = (body ++ ['*', '/'], rest) := by
  induction body with
  | nil => rfl
  | cons c body ih =>
      have hbody : ¬ ['*', '/'] <:+: body ++ ['*'] := fun hin => h (List.infix_cons hin)
      -- An end at `c` would already stand within `body` and the star behind it.
      have hc : ¬ ['*', '/'] <+: c :: (body ++ '*' :: '/' :: rest) := by
        intro hpre
        refine h (List.IsPrefix.isInfix ?_)
        cases body with
        | nil => simp at hpre
        | cons d body =>
            obtain ⟨rfl, rfl, -⟩ : '*' = c ∧ '/' = d ∧ True := by simpa using hpre
            exact ⟨body ++ ['*'], rfl⟩
      rw [List.cons_append, throughCommentEnd_cons hc, ih hbody]
      rfl

/-- What stands behind `/*` has a first `*/` or none. -/
lemma closed_or_open (source : List Char) :
    (∃ body rest, source = body ++ '*' :: '/' :: rest ∧ ¬ ['*', '/'] <:+: body ++ ['*']) ∨
      ¬ ['*', '/'] <:+: source := by
  induction source with
  | nil => exact .inr (by simp)
  | cons c source ih =>
      by_cases hpre : ['*', '/'] <+: c :: source
      · obtain ⟨rest, hrest⟩ := hpre
        refine .inl ⟨[], rest, hrest.symm, ?_⟩
        intro hin
        have hle := hin.length_le
        simp at hle
      rcases ih with ⟨body, rest, rfl, hbody⟩ | hopen
      · refine .inl ⟨c :: body, rest, rfl, ?_⟩
        intro hin
        rcases List.infix_cons_iff.1 hin with h | h
        · exact hpre (h.trans ⟨'/' :: rest, by simp⟩)
        · exact hbody h
      · refine .inr ?_
        intro hin
        rcases List.infix_cons_iff.1 hin with h | h
        · exact hpre h
        · exact hopen h

/-! ### The first segment is a match -/

lemma shape_number {c : Char} (rest : List Char) (h : c.isDigit = true) :
    Shape (.token .number) (number (c :: rest)).1 (number (c :: rest)).2 := by
  have hrun : ∀ source : List Char, ∀ d ∈ source.takeWhile Char.isDigit, Digit d :=
    fun source d hd => isDigit_iff.1 (List.mem_takeWhile_imp hd)
  have hwhole : Run Digit ((c :: rest).takeWhile Char.isDigit) :=
    ⟨by simp [h], hrun _⟩
  rw [number]
  split
  · rename_i digit more hmore
    split
    · rename_i hdigit
      exact .decimal hwhole ⟨by simp [hdigit], hrun _⟩
    · exact .whole hwhole
  · exact .whole hwhole

lemma shape_word {c : Char} (rest : List Char) (h : isWordStart c = true) :
    Shape (.token (wordKind (c :: rest.takeWhile isWordPart))) (c :: rest.takeWhile isWordPart)
      (rest.dropWhile isWordPart) := by
  rw [wordKind]
  split
  · rename_i k hk
    rw [← chars_of_keyword_ofChars? hk]
    exact .keyword
  · rename_i hnone
    refine .identifier ⟨c, _, rfl, isWordStart_iff.1 h, ?_⟩ ?_
    · exact fun d hd => isWordPart_iff.1 (List.mem_takeWhile_imp hd)
    · intro k hk
      rw [← hk, keyword_ofChars?_chars] at hnone
      contradiction

lemma shape_string (rest : List Char) :
    Shape (string rest).1.rule (string rest).1.text (string rest).2 := by
  have hbody : '"' ∉ rest.takeWhile (· != '"') := by
    intro hmem
    simpa using List.mem_takeWhile_imp hmem
  rw [string]
  split
  · rename_i quote more hmore
    have hquote : quote = '"' := by
      have hhead := List.head?_dropWhile_not (· != '"') rest
      simpa [hmore] using hhead
    rw [hquote]
    exact .string hbody
  · exact .openString hbody

/-- Every rule is recognised by its first character. -/
lemma Shape.head {rule : Rule} {text rest : List Char} (h : Shape rule text rest) :
    ∃ c more, text = c :: more ∧ (isBlank c = true ∨ c = '\n' ∨ c = '"' ∨
      c.isDigit = true ∨ isWordStart c = true ∨ Symbol.ofChars? [c] ≠ none) := by
  have digit : ∀ {digits : List Char}, Run Digit digits →
      ∃ c more, digits = c :: more ∧ c.isDigit = true := by
    rintro digits ⟨hne, hall⟩
    obtain ⟨c, more, rfl⟩ := List.exists_cons_of_ne_nil hne
    exact ⟨c, more, rfl, isDigit_iff.2 (hall c (by simp))⟩
  have slash : Symbol.ofChars? ['/'] ≠ none := by decide
  cases h with
  | blank h =>
      obtain ⟨c, more, rfl⟩ := List.exists_cons_of_ne_nil h.1
      exact ⟨c, more, rfl, .inl (isBlank_iff.2 (h.2 c (by simp)))⟩
  | newline => exact ⟨_, _, rfl, by simp⟩
  | lineComment _ _ => exact ⟨_, _, rfl, by simp [slash]⟩
  | blockComment _ => exact ⟨_, _, rfl, by simp [slash]⟩
  | openComment _ => exact ⟨_, _, rfl, by simp [slash]⟩
  | @symbol s _ =>
      have hs : ∃ c more, s.chars = c :: more ∧ Symbol.ofChars? [c] ≠ none := by
        cases s <;> exact ⟨_, _, rfl, by decide⟩
      obtain ⟨c, more, hchars, hc⟩ := hs
      exact ⟨c, more, hchars, by simp [hc]⟩
  | whole h =>
      obtain ⟨c, more, rfl, hc⟩ := digit h
      exact ⟨c, more, rfl, by simp [hc]⟩
  | decimal h _ =>
      obtain ⟨c, more, rfl, hc⟩ := digit h
      exact ⟨c, _, rfl, by simp [hc]⟩
  | @keyword k _ =>
      obtain ⟨c, more, hchars, hc, -⟩ := keyword_word k
      exact ⟨c, more, hchars, by simp [isWordStart_iff.2 hc]⟩
  | identifier h _ =>
      obtain ⟨c, more, rfl, hc, -⟩ := h
      exact ⟨c, more, rfl, by simp [isWordStart_iff.2 hc]⟩
  | string _ => exact ⟨_, _, rfl, by simp⟩
  | openString _ => exact ⟨_, _, rfl, by simp⟩

lemma matches_shortSymbol {c : Char} (rest : List Char)
    (h : Symbol.ofChars? [c] = none → ¬ Starts c) :
    Matches (shortSymbol c rest).1.rule (shortSymbol c rest).1.text (shortSymbol c rest).2 := by
  rw [shortSymbol]
  split
  · rename_i s hs
    rw [← chars_of_symbol_ofChars? hs]
    exact .shape .symbol
  · rename_i hnone
    exact .unexpected (h hnone)

lemma matches_symbol {c : Char} (rest : List Char)
    (h : Symbol.ofChars? [c] = none → ¬ Starts c) :
    Matches (Segment.symbol c rest).1.rule (Segment.symbol c rest).1.text
      (Segment.symbol c rest).2 := by
  rw [Segment.symbol.eq_def]
  split
  · exact matches_shortSymbol [] h
  · split
    · rename_i s hs
      rw [← chars_of_symbol_ofChars? hs]
      exact .shape .symbol
    · exact matches_shortSymbol _ h

lemma matches_slash (rest : List Char) :
    Matches (slash rest).1.rule (slash rest).1.text (slash rest).2 := by
  rw [Segment.slash.eq_def]
  split
  · rename_i more
    refine .shape (.lineComment ?_ ?_)
    · intro hmem
      simpa using List.mem_takeWhile_imp hmem
    · have hhead := List.head?_dropWhile_not (· != '\n') more
      cases hmore : more.dropWhile (· != '\n') with
      | nil => exact .inl rfl
      | cons c later =>
          rw [hmore] at hhead
          have hc : c = '\n' := by simpa using hhead
          exact .inr ⟨later, by rw [hc]⟩
  · rename_i more
    rcases closed_or_open more with ⟨body, later, rfl, hbody⟩ | hopen
    · rw [throughCommentEnd_of_closed later hbody]
      exact .shape (.blockComment hbody)
    · rw [throughCommentEnd_of_open hopen]
      exact .shape (.openComment hopen)
  · exact matches_symbol _ fun hnone => absurd hnone (by decide)

/-- The first segment is a match of its rule. -/
theorem matches_first (c : Char) (rest : List Char) :
    Matches (first c rest).1.rule (first c rest).1.text (first c rest).2 := by
  by_cases hblank : isBlank c = true
  · rw [first_of_isBlank rest hblank]
    refine .shape (.blank ⟨by simp [hblank], ?_⟩)
    exact fun d hd => isBlank_iff.1 (List.mem_takeWhile_imp hd)
  by_cases hline : c = '\n'
  · rw [hline]
    exact .shape .newline
  by_cases hquote : c = '"'
  · rw [hquote]
    exact .shape (shape_string rest)
  by_cases hslash : c = '/'
  · rw [hslash]
    exact matches_slash rest
  by_cases hdigit : c.isDigit = true
  · rw [first_of_isDigit rest hdigit]
    exact .shape (shape_number rest hdigit)
  by_cases hword : isWordStart c = true
  · rw [first_of_isWordStart rest hword]
    exact .shape (shape_word rest hword)
  rw [first, if_neg hblank, if_neg hline, if_neg hquote, if_neg hslash, if_neg hdigit,
    if_neg hword]
  refine matches_symbol rest ?_
  rintro hnone ⟨rule, text, rest', h⟩
  obtain ⟨d, more, htext, hd⟩ := h.head
  obtain ⟨rfl, rfl⟩ := List.cons.inj htext
  rcases hd with hd | hd | hd | hd | hd | hd <;> contradiction

/-! ### No match goes further -/

/-- The source that starts with the text has a first segment that goes further
than the text, or that is the text under the same rule. -/
def Within (rule : Rule) (text rest : List Char) : Prop :=
  ∃ c more, text ++ rest = c :: more ∧
    (text.length < (first c more).1.text.length ∨ first c more = (⟨rule, text⟩, rest))

/-- A run at the start of a source is the longest one or shorter. -/
lemma takeWhile_longer_or_eq {p : Char → Bool} {text : List Char} (rest : List Char)
    (h : ∀ c ∈ text, p c = true) :
    text.length < ((text ++ rest).takeWhile p).length ∨
      ((text ++ rest).takeWhile p = text ∧ (text ++ rest).dropWhile p = rest) := by
  rw [List.takeWhile_append_of_pos h, List.dropWhile_append_of_pos h]
  have hrest := List.takeWhile_append_dropWhile (p := p) (l := rest)
  cases hmore : rest.takeWhile p with
  | nil =>
      rw [hmore] at hrest
      exact .inr ⟨List.append_nil text, hrest⟩
  | cons c more =>
      refine .inl ?_
      rw [List.length_append, List.length_cons]
      omega

lemma bne_of_notMem {d : Char} {body : List Char} (h : d ∉ body) :
    ∀ c ∈ body, (c != d) = true := by
  intro c hc
  refine bne_iff_ne.2 ?_
  rintro rfl
  exact h hc

lemma within_blank {text : List Char} (rest : List Char) (h : Run Blank text) :
    Within .blank text rest := by
  obtain ⟨c, more, rfl⟩ := List.exists_cons_of_ne_nil h.1
  refine ⟨c, more ++ rest, rfl, ?_⟩
  rw [first_of_isBlank _ (isBlank_iff.2 (h.2 c (by simp)))]
  have hall : ∀ d ∈ c :: more, isBlank d = true := fun d hd => isBlank_iff.2 (h.2 d hd)
  rcases takeWhile_longer_or_eq rest hall with hlt | ⟨htake, hdrop⟩
  · exact .inl hlt
  · rw [← List.cons_append, htake, hdrop]
    exact .inr rfl

lemma within_lineComment {body rest : List Char} (h : '\n' ∉ body)
    (h' : rest = [] ∨ ∃ more, rest = '\n' :: more) :
    Within .lineComment ('/' :: '/' :: body) rest := by
  refine ⟨'/', '/' :: (body ++ rest), rfl, .inr ?_⟩
  have hall := bne_of_notMem h
  have htake : rest.takeWhile (· != '\n') = [] := by
    rcases h' with rfl | ⟨more, rfl⟩ <;> rfl
  have hdrop : rest.dropWhile (· != '\n') = rest := by
    rcases h' with rfl | ⟨more, rfl⟩ <;> rfl
  rw [first_slash]
  show (_, _) = (_, _)
  rw [List.takeWhile_append_of_pos hall, List.dropWhile_append_of_pos hall, htake, hdrop,
    List.append_nil]

lemma within_blockComment {body : List Char} (rest : List Char)
    (h : ¬ ['*', '/'] <:+: body ++ ['*']) :
    Within .blockComment ('/' :: '*' :: body ++ ['*', '/']) rest := by
  refine ⟨'/', '*' :: (body ++ '*' :: '/' :: rest), by simp, .inr ?_⟩
  rw [first_slash]
  show (_, _) = (_, _)
  rw [throughCommentEnd_of_closed rest h]
  rfl

lemma within_openComment {body : List Char} (h : ¬ ['*', '/'] <:+: body) :
    Within .blockComment ('/' :: '*' :: body) [] := by
  refine ⟨'/', '*' :: body, by simp, .inr ?_⟩
  rw [first_slash]
  show (_, _) = (_, _)
  rw [throughCommentEnd_of_open h]

/-- One character is read on as a symbol of two where it starts one. -/
lemma symbol_longer_or_eq {s : Symbol} {c : Char} {more : List Char} (rest : List Char)
    (h : s.chars = c :: more) :
    s.chars.length < (Segment.symbol c (more ++ rest)).1.text.length ∨
      Segment.symbol c (more ++ rest) = (⟨.token (.symbol s), s.chars⟩, rest) := by
  have hs : Symbol.ofChars? (c :: more) = some s := h ▸ symbol_ofChars?_chars s
  have hlength : more.length ≤ 1 := by
    have hle : s.chars.length ≤ 2 := by cases s <;> decide
    rw [h, List.length_cons] at hle
    omega
  rw [h]
  match more, hlength with
  | [], _ =>
      have hshort : ∀ rest', shortSymbol c rest' = (⟨.token (.symbol s), [c]⟩, rest') := by
        intro rest'
        rw [shortSymbol, hs]
      rw [Segment.symbol.eq_def]
      cases rest with
      | nil => exact .inr (hshort [])
      | cons d rest =>
          simp only [List.nil_append]
          split
          · exact .inl (by simp)
          · exact .inr (hshort _)
  | [d], _ =>
      refine .inr ?_
      rw [List.singleton_append, Segment.symbol, hs]

lemma within_symbol (s : Symbol) (rest : List Char) :
    Within (.token (.symbol s)) s.chars rest := by
  obtain ⟨c, more, h⟩ : ∃ c more, s.chars = c :: more := by
    cases s <;> exact ⟨_, _, rfl⟩
  refine ⟨c, more ++ rest, by rw [h]; rfl, ?_⟩
  by_cases hslash : c = '/'
  · subst hslash
    rw [first_slash, Segment.slash.eq_def]
    have hmore : more = [] := by
      cases s <;> cases h
      rfl
    subst hmore
    -- A comment has at least the two characters that open it.
    split
    · exact .inl (by simp [h])
    · exact .inl (by simp [h])
    · exact symbol_longer_or_eq rest h
  · rw [first_of_symbol _ h hslash]
    exact symbol_longer_or_eq rest h

lemma length_takeWhile_le_number (source : List Char) :
    (source.takeWhile Char.isDigit).length ≤ (number source).1.length := by
  rw [number]
  split
  · split <;> simp
  · exact Nat.le_refl _

lemma within_whole {digits : List Char} (rest : List Char) (h : Run Digit digits) :
    Within (.token .number) digits rest := by
  obtain ⟨c, more, rfl⟩ := List.exists_cons_of_ne_nil h.1
  refine ⟨c, more ++ rest, rfl, ?_⟩
  rw [first_of_isDigit _ (isDigit_iff.2 (h.2 c (by simp)))]
  have hall : ∀ d ∈ c :: more, d.isDigit = true := fun d hd => isDigit_iff.2 (h.2 d hd)
  rcases takeWhile_longer_or_eq rest hall with hlt | ⟨htake, hdrop⟩
  · exact .inl (Nat.lt_of_lt_of_le hlt (length_takeWhile_le_number _))
  · rw [← List.cons_append, number, htake, hdrop]
    split
    · split
      · exact .inl (by simp)
      · exact .inr rfl
    · exact .inr rfl

/-- Digits behind a point belong to the number before it. -/
lemma number_of_point {digits : List Char} {d : Char} (more : List Char)
    (h : ∀ c ∈ digits, c.isDigit = true) (hd : d.isDigit = true) :
    number (digits ++ '.' :: d :: more) =
      (digits ++ '.' :: (d :: more).takeWhile Char.isDigit,
        (d :: more).dropWhile Char.isDigit) := by
  have hpoint : ¬ '.'.isDigit = true := by decide
  have hwhole : (digits ++ '.' :: d :: more).takeWhile Char.isDigit = digits := by
    rw [List.takeWhile_append_of_pos h, List.takeWhile_cons_of_neg hpoint, List.append_nil]
  have hrest : (digits ++ '.' :: d :: more).dropWhile Char.isDigit = '.' :: d :: more := by
    rw [List.dropWhile_append_of_pos h, List.dropWhile_cons_of_neg hpoint]
  rw [number, hwhole, hrest]
  exact if_pos hd

lemma within_decimal {digits fraction : List Char} (rest : List Char) (h : Run Digit digits)
    (h' : Run Digit fraction) : Within (.token .number) (digits ++ '.' :: fraction) rest := by
  obtain ⟨c, more, rfl⟩ := List.exists_cons_of_ne_nil h.1
  obtain ⟨d, digits', rfl⟩ := List.exists_cons_of_ne_nil h'.1
  have hall : ∀ e ∈ c :: more, e.isDigit = true := fun e he => isDigit_iff.2 (h.2 e he)
  have hall' : ∀ e ∈ d :: digits', e.isDigit = true := fun e he => isDigit_iff.2 (h'.2 e he)
  have hsource : c :: (more ++ '.' :: d :: digits' ++ rest) =
      (c :: more) ++ '.' :: d :: (digits' ++ rest) := by simp
  refine ⟨c, more ++ '.' :: d :: digits' ++ rest, rfl, ?_⟩
  rw [first_of_isDigit _ (hall c (by simp)), hsource,
    number_of_point (digits' ++ rest) hall (hall' d (by simp)), ← List.cons_append]
  rcases takeWhile_longer_or_eq rest hall' with hlt | ⟨htake, hdrop⟩
  · refine .inl ?_
    simp only [List.length_append, List.length_cons] at hlt ⊢
    omega
  · refine .inr ?_
    rw [htake, hdrop]

lemma within_word {word : List Char} (rest : List Char) (h : Word word) :
    Within (.token (wordKind word)) word rest := by
  obtain ⟨c, more, rfl, hc, hmore⟩ := h
  refine ⟨c, more ++ rest, rfl, ?_⟩
  rw [first_of_isWordStart _ (isWordStart_iff.2 hc)]
  have hall : ∀ d ∈ more, isWordPart d = true := fun d hd => isWordPart_iff.2 (hmore d hd)
  rcases takeWhile_longer_or_eq rest hall with hlt | ⟨htake, hdrop⟩
  · exact .inl (Nat.succ_lt_succ hlt)
  · rw [htake, hdrop]
    exact .inr rfl

lemma within_string {body : List Char} (rest : List Char) (h : '"' ∉ body) :
    Within (.token .string) ('"' :: body ++ ['"']) rest := by
  refine ⟨'"', body ++ '"' :: rest, by simp, .inr ?_⟩
  have hall := bne_of_notMem h
  rw [first_quote, string, List.takeWhile_append_of_pos hall, List.dropWhile_append_of_pos hall]
  simp

lemma within_openString {body : List Char} (h : '"' ∉ body) :
    Within (.error .unterminatedString) ('"' :: body) [] := by
  refine ⟨'"', body, by simp, .inr ?_⟩
  have hall := bne_of_notMem h
  rw [first_quote, string, List.takeWhile_eq_self_iff.2 hall, List.dropWhile_eq_nil_iff.2 hall]

lemma Shape.within {rule : Rule} {text rest : List Char} (h : Shape rule text rest) :
    Within rule text rest := by
  cases h with
  | blank h => exact within_blank rest h
  | newline => exact ⟨'\n', rest, rfl, .inr (first_newline rest)⟩
  | lineComment h h' => exact within_lineComment h h'
  | blockComment h => exact within_blockComment rest h
  | openComment h => exact within_openComment h
  | @symbol s _ => exact within_symbol s rest
  | whole h => exact within_whole rest h
  | decimal h h' => exact within_decimal rest h h'
  | @keyword k _ =>
      have hword := within_word rest (keyword_word k)
      rwa [wordKind, keyword_ofChars?_chars] at hword
  | identifier h h' =>
      have hkind : wordKind text = .identifier := by
        rw [wordKind]
        split
        · rename_i k hk
          exact absurd (chars_of_keyword_ofChars? hk) (h' k)
        · rfl
      have hword := within_word rest h
      rwa [hkind] at hword
  | string h => exact within_string rest h
  | openString h => exact within_openString h

/-- A match that covers a source is its first segment. -/
lemma first_of_shape {rule : Rule} {c : Char} {rest : List Char}
    (h : Shape rule (c :: rest) []) : first c rest = (⟨rule, c :: rest⟩, []) := by
  obtain ⟨d, more, hsource, hlonger | hfirst⟩ := h.within
  · rw [List.append_nil] at hsource
    have hle := congrArg List.length (Segment.first_append d more)
    rw [List.length_append, ← hsource] at hle
    omega
  · rw [List.append_nil] at hsource
    obtain ⟨rfl, rfl⟩ := List.cons.inj hsource
    exact hfirst

theorem Matches.within {rule : Rule} {text rest : List Char} (h : Matches rule text rest) :
    Within rule text rest := by
  cases h with
  | shape h => exact h.within
  | @unexpected c rest h =>
      refine ⟨c, rest, rfl, .inr ?_⟩
      have hmatch := matches_first c rest
      have happ := Segment.first_append c rest
      generalize first c rest = result at hmatch happ
      obtain ⟨⟨rule, text⟩, rest'⟩ := result
      cases hmatch with
      | shape hshape =>
          -- The text of the first segment starts with `c`.
          obtain ⟨d, more, rfl, -⟩ := hshape.head
          obtain ⟨rfl, -⟩ := List.cons.inj happ
          exact absurd ⟨rule, more, rest', hshape⟩ h
      | unexpected _ =>
          obtain ⟨rfl, rfl⟩ := List.cons.inj happ
          rfl

end Scriptlet.Lexical
