import Scriptlet.Proofs.Token.FirstSegment

/-!
The scanner takes the longest match at every place of a source.

* `longest_first`, `Longest.first_eq`: the first segment is the longest match.
* `isCut_iff`: a source has one cut into longest matches, its segments.
* `scan_longest_match`: tokens and report are those of this cut.
-/

namespace Scriptlet.Lexical

open Segment (first)

/-! ### Cuts into longest matches -/

/-- The first segment is a longest match. -/
theorem longest_first (c : Char) (rest : List Char) :
    Longest (first c rest).1 (first c rest).2 where
  isMatch := matches_first c rest
  length_le := by
    intro rule text rest' h happ
    obtain ⟨d, more, hsource, hmore⟩ := h.within
    rw [happ, Segment.first_append] at hsource
    obtain ⟨rfl, rfl⟩ := List.cons.inj hsource
    rcases hmore with hlt | heq
    · exact Nat.le_of_lt hlt
    · rw [heq]

/-- A longest match is the first segment of its source. -/
theorem Longest.first_eq {segment : Segment} {rest : List Char} (h : Longest segment rest) :
    ∃ c more, segment.text ++ rest = c :: more ∧ first c more = (segment, rest) := by
  obtain ⟨c, more, hsource, hlt | heq⟩ := h.isMatch.within
  · have hle := h.length_le (matches_first c more) (by rw [Segment.first_append, hsource])
    omega
  · exact ⟨c, more, hsource, heq⟩

/-- **There is one cut of a source into longest matches**, its segments. -/
theorem isCut_iff {source : List Char} {segments : List Segment} :
    IsCut source segments ↔ segments = Segment.cut source := by
  constructor
  · intro h
    induction h with
    | nil => rw [Segment.cut]
    | @cons segment rest segments h _ ih =>
        obtain ⟨c, more, hsource, hfirst⟩ := h.first_eq
        calc segment :: segments
            = (first c more).1 :: Segment.cut (first c more).2 := by rw [hfirst, ih]
          _ = Segment.cut (c :: more) := by rw [Segment.cut]
          _ = Segment.cut (segment.text ++ rest) := by rw [hsource]
  · rintro rfl
    induction source using Segment.cut.induct with
    | case1 =>
        rw [Segment.cut]
        exact .nil
    | case2 c rest ih =>
        have hcut := IsCut.cons (longest_first c rest) ih
        rwa [Segment.first_append, ← Segment.cut] at hcut

/-! ### What the scanner makes of the segments -/

/-- The kind and the text of a segment that is a token. -/
def lexeme? (segment : Segment) : Option (Token.Kind × String) :=
  segment.rule.kind?.map (·, String.ofList segment.text)

/-- The message about a segment that is an error. -/
def complaint? (segment : Segment) : Option String :=
  match segment.rule with
  | .error .unexpectedCharacter => some ("Unexpected character: " ++ String.ofList segment.text)
  | .error .unterminatedString => some "Unterminated string."
  | _ => none

lemma tokens_ofSegments (source : List Char) (cursor : Cursor) (segments : List Segment) :
    (Scan.ofSegments source cursor segments).tokens.map (fun t => (t.kind, t.lexeme)) =
      segments.filterMap lexeme? ++ [(.endOfInput, "")] := by
  induction segments generalizing cursor with
  | nil => rfl
  | cons segment segments ih =>
      obtain ⟨rule, text⟩ := segment
      cases rule with
      | token kind => exact congrArg ((kind, String.ofList text) :: ·) (ih _)
      | _ => exact ih _

lemma Longest.describe {segment : Segment} {rest : List Char} (h : Longest segment rest) :
    ∀ cause, segment.rule = .error cause →
      complaint? segment = some (cause.describe segment.text) := by
  obtain ⟨rule, text⟩ := segment
  rintro cause rfl
  cases h.isMatch with
  | shape h =>
      cases h
      rfl
  | unexpected _ => rfl

lemma IsCut.report_ofSegments {rest : List Char} {segments : List Segment}
    (h : IsCut rest segments) (source : List Char) (cursor : Cursor) :
    (Scan.ofSegments source cursor segments).report.map (·.message) =
      segments.filterMap complaint? := by
  induction h generalizing cursor with
  | nil => rfl
  | @cons segment rest segments h _ ih =>
      have hdescribe := h.describe
      obtain ⟨rule, text⟩ := segment
      cases rule with
      | error cause =>
          rw [List.filterMap_cons_some (hdescribe cause rfl), ← ih]
          rfl
      | _ => exact ih _

lemma IsCut.not_endOfInput {source : List Char} {segments : List Segment}
    (h : IsCut source segments) : ∀ segment ∈ segments, segment.rule ≠ .token .endOfInput := by
  induction h with
  | nil => simp
  | @cons segment rest segments h _ ih =>
      refine List.forall_mem_cons.2 ⟨?_, ih⟩
      intro hrule
      have hmatch := h.isMatch
      rw [hrule] at hmatch
      cases hmatch with
      | shape hshape => cases hshape

lemma rule_of_complaint? {segment : Segment}
    (h : complaint? segment = some "Unterminated string.") :
    segment.rule = .error .unterminatedString := by
  rw [complaint?] at h
  split at h
  · have htake := congrArg (fun m : String => m.toList.take 3) (Option.some.inj h)
    simp [String.toList_append] at htake
  · assumption
  · contradiction

/-- Nothing follows an open string. -/
lemma IsCut.unterminated_last {source : List Char} {segments : List Segment}
    (h : IsCut source segments) :
    "Unterminated string." ∉ (segments.filterMap complaint?).dropLast := by
  induction h with
  | nil => simp
  | @cons segment rest segments h hcut ih =>
      cases hc : complaint? segment with
      | none => rwa [List.filterMap_cons_none hc]
      | some message =>
          rw [List.filterMap_cons_some hc]
          by_cases hlater : segments.filterMap complaint? = []
          · rw [hlater]
            simp
          rw [List.dropLast_cons_of_ne_nil hlater, List.mem_cons, not_or]
          refine ⟨?_, ih⟩
          rintro rfl
          have hmatch := h.isMatch
          rw [rule_of_complaint? hc] at hmatch
          -- An open string leaves no rest, and so no segment behind it.
          have hrest : rest = [] := by
            cases hmatch with
            | shape hshape =>
                generalize segment.text = text at hshape
                cases hshape
                rfl
          subst hrest
          rw [isCut_iff.1 hcut, Segment.cut] at hlater
          exact hlater rfl

lemma count_le_one_of_notMem_dropLast {message : String} {messages : List String}
    (h : message ∉ messages.dropLast) : messages.count message ≤ 1 := by
  rcases List.eq_nil_or_concat messages with rfl | ⟨init, last, rfl⟩
  · simp
  · rw [List.concat_eq_append] at h ⊢
    rw [List.dropLast_concat] at h
    rw [List.count_append, List.count_eq_zero.2 h, List.count_singleton]
    split <;> omega

/-- **A scan is the only cut of the source into longest matches.** Its tokens
are the segments that are tokens, with an end marker behind them that no
segment has become, and its report has one entry for every segment that is an
error. An open string can only be the last of these. -/
theorem scan_longest_match (source : String) :
    ∃ segments,
      (∀ other, IsCut source.toList other ↔ other = segments) ∧
      segments.flatMap (·.text) = source.toList ∧
      (scan source).tokens.map (fun t => (t.kind, t.lexeme)) =
        segments.filterMap lexeme? ++ [(.endOfInput, "")] ∧
      (∀ segment ∈ segments, segment.rule ≠ .token .endOfInput) ∧
      (scan source).report.map (·.message) = segments.filterMap complaint? ∧
      "Unterminated string." ∉ ((scan source).report.map (·.message)).dropLast ∧
      ((scan source).report.map (·.message)).count "Unterminated string." ≤ 1 := by
  have hcut : IsCut source.toList (Segment.cut source.toList) := isCut_iff.2 rfl
  have hreport : (scan source).report.map (·.message) =
      (Segment.cut source.toList).filterMap complaint? := hcut.report_ofSegments _ _
  have hlast : "Unterminated string." ∉ ((scan source).report.map (·.message)).dropLast := by
    rw [hreport]
    exact hcut.unterminated_last
  exact ⟨Segment.cut source.toList, fun _ => isCut_iff, Segment.flatMap_cut source.toList,
    tokens_ofSegments _ _ _, hcut.not_endOfInput, hreport, hlast,
    count_le_one_of_notMem_dropLast hlast⟩

end Scriptlet.Lexical
