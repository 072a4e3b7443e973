import Scriptlet.Proofs.Token.Delimiter
import Scriptlet.Proofs.Token.Positions

/-!
Scanning starts afresh at a line feed.

No token, no line comment and no error reaches over a line feed, except for strings
and comments, which run up to their ends. So if a source leaves none of these open,
and a line feed and another source are put behind it, then both sources are cut as if
each stood alone, and the second one moves down.

* `Segment.cut_append_newline`: the segments of two sources with a line feed between
  them.
* `Scan.counted`: a scan with positions by counting.
* `EndsInString`, `EndsInComment`: sources that leave something open.
* `scan_append_newline`: the tokens and the report of two sources with a line feed
  between them.
* `filterMap_lexeme?_of_open`: what is left open swallows what is put behind it.
* `scan_restarts_iff`: so scanning starts afresh behind those sources only that leave
  nothing open.
-/

namespace Scriptlet

open Lexical

namespace Segment

/-! ### Cuts before a line feed -/

/-- Over a line feed run strings and comments that lack their end, and nothing else. -/
lemma not_runsOver_newline {segment : Segment}
    (h : ¬ segment.IsOpenString ∧ ¬ segment.IsOpenComment) : ¬ segment.RunsOver '\n' := by
  obtain ⟨hstring, hcomment⟩ := h
  rw [RunsOver]
  split
  · decide
  · decide
  · exact hcomment
  · exact absurd ‹_› hstring
  · exact not_false

/-- **Two sources with a line feed between them** are cut one after the other, unless
the first one leaves something open. -/
theorem cut_append_newline {source : List Char}
    (h : ∀ segment ∈ cut source, ¬ segment.IsOpenString ∧ ¬ segment.IsOpenComment)
    (more : List Char) :
    cut (source ++ '\n' :: more) = cut source ++ ⟨.newline, ['\n']⟩ :: cut more := by
  induction source using cut.induct with
  | case1 => rw [List.nil_append, cut, cut, first_newline, List.nil_append]
  | case2 c rest ih =>
      rw [cut] at h
      obtain ⟨hfirst, hrest⟩ := List.forall_mem_cons.1 h
      rw [List.cons_append, cut, first_before delimiter_newline (not_runsOver_newline hfirst),
        ih hrest, cut, List.cons_append]

end Segment

/-! ### Scans with positions by counting -/

namespace Scan

/-- The scan of segments that stand behind a text, with positions by counting. -/
def counted (before : List Char) : List Segment → Scan
  | [] => ⟨[.endOfInput (.behind before)], []⟩
  | segment :: segments =>
    prepend segment (.behind before) (counted (before ++ segment.text) segments)

/-- The tokens of one scan and then those of another, without the end marker between
them, and the reports of both. -/
def append (first second : Scan) : Scan :=
  ⟨first.tokens.dropLast ++ second.tokens, first.report ++ second.report⟩

/-- The scan a number of lines further down. -/
def below (lines : Nat) (s : Scan) : Scan :=
  ⟨s.tokens.map (Token.moved (Position.below lines)), s.report.map (Diagnostic.below lines)⟩

lemma ofSegments_eq_counted {source before rest : List Char} {segments : List Segment}
    (hcut : IsCut rest segments) (hsource : source = before ++ rest) :
    ofSegments source (.behind before) segments = counted before segments := by
  induction hcut generalizing before with
  | nil => rw [ofSegments, hsource, Cursor.position_behind, counted]
  | @cons segment rest segments h _ ih =>
      have hlater : source = before ++ segment.text ++ rest := by
        rw [hsource, List.append_assoc]
      rw [ofSegments, Cursor.pass_behind h.isMatch, ih hlater, hsource, Cursor.position_behind,
        counted]

lemma scan_eq_counted (source : String) :
    scan source = counted [] (Segment.cut source.toList) :=
  ofSegments_eq_counted (isCut_iff.2 rfl) (List.nil_append _).symm

lemma prepend_append {first : Scan} (h : first.tokens ≠ []) (segment : Segment)
    (position : Position) (second : Scan) :
    (prepend segment position first).append second =
      prepend segment position (first.append second) := by
  rw [prepend.eq_def, prepend.eq_def]
  split
  · rw [append, append, List.dropLast_cons_of_ne_nil h, List.cons_append]
  · rfl
  · rfl

lemma tokens_counted_ne_nil (before : List Char) (segments : List Segment) :
    (counted before segments).tokens ≠ [] := by
  induction segments generalizing before with
  | nil => exact List.cons_ne_nil _ _
  | cons segment segments ih =>
      rw [counted, prepend.eq_def]
      split
      · exact List.cons_ne_nil _ _
      · exact ih _
      · exact ih _

lemma counted_append (before : List Char) (segments more : List Segment) :
    counted before (segments ++ more) =
      (counted before segments).append
        (counted (before ++ segments.flatMap (·.text)) more) := by
  induction segments generalizing before with
  | nil =>
      rw [List.nil_append, List.flatMap_nil, List.append_nil]
      rfl
  | cons segment segments ih =>
      rw [List.cons_append, counted, ih, counted, prepend_append (tokens_counted_ne_nil _ _),
        List.flatMap_cons, List.append_assoc]

/-- What an entry of a scan says about its segment does not depend on the line. -/
lemma prepend_below (lines : Nat) (segment : Segment) (position : Position) (later : Scan) :
    prepend segment (position.below lines) (later.below lines) =
      (prepend segment position later).below lines := by
  rw [prepend.eq_def, prepend.eq_def]
  split <;> rfl

/-- Behind a line feed, only the lines of the entries count those above it. -/
lemma counted_below (above before : List Char) (segments : List Segment) :
    counted (above ++ '\n' :: before) segments =
      (counted before segments).below (1 + above.count '\n') := by
  induction segments generalizing before with
  | nil =>
      rw [counted, Position.behind_below]
      rfl
  | cons segment segments ih =>
      rw [counted, List.append_assoc, List.cons_append, ih, Position.behind_below, prepend_below,
        counted]

end Scan

/-! ### Sources -/

/-- The source ends inside a string that is not closed. -/
def EndsInString (source : String) : Prop :=
  ∃ segment ∈ Segment.cut source.toList, segment.IsOpenString

/-- The source ends inside a comment that is not closed. -/
def EndsInComment (source : String) : Prop :=
  ∃ segment ∈ Segment.cut source.toList, segment.IsOpenComment

instance (source : String) : Decidable (EndsInString source) :=
  inferInstanceAs (Decidable (∃ _ ∈ _, _))

instance (source : String) : Decidable (EndsInComment source) :=
  inferInstanceAs (Decidable (∃ _ ∈ _, _))

/-- A string that is not closed is reported. -/
lemma not_endsInString_of_report {source : String} (h : (scan source).report = []) :
    ¬ EndsInString source := by
  rintro ⟨segment, hmem, hopen⟩
  have hcut : IsCut source.toList (Segment.cut source.toList) := isCut_iff.2 rfl
  have hmessages : (scan source).report.map (·.message) =
      (Segment.cut source.toList).filterMap complaint? := hcut.report_ofSegments _ _
  rw [h, List.map_nil, eq_comm, List.filterMap_eq_nil_iff] at hmessages
  have hsilent := hmessages segment hmem
  rw [complaint?, hopen] at hsilent
  cases hsilent

/-- **Scanning starts afresh at a line feed.** Behind a source that leaves no string and
no comment open, another one is scanned as if it stood alone, further down by the lines
of the first. -/
theorem scan_append_newline {source : String} (hstring : ¬ EndsInString source)
    (hcomment : ¬ EndsInComment source) (more : String) :
    scan (source ++ "\n" ++ more) =
      (scan source).append ((scan more).below (1 + source.toList.count '\n')) := by
  have hclosed : ∀ segment ∈ Segment.cut source.toList,
      ¬ segment.IsOpenString ∧ ¬ segment.IsOpenComment :=
    fun segment hmem => ⟨fun hopen => hstring ⟨segment, hmem, hopen⟩,
      fun hopen => hcomment ⟨segment, hmem, hopen⟩⟩
  have htext : (source ++ "\n" ++ more).toList = source.toList ++ '\n' :: more.toList := by
    simp
  have hsecond := Scan.counted_below source.toList [] (Segment.cut more.toList)
  rw [Scan.scan_eq_counted, htext, Segment.cut_append_newline hclosed, Scan.counted_append,
    List.nil_append, Segment.flatMap_cut, Scan.counted, Scan.scan_eq_counted,
    Scan.scan_eq_counted, ← hsecond]
  rfl

/-! ### Sources that leave something open -/

namespace Segment

/-- What stands on both sides of a character that it does not hold stands on one of them. -/
lemma infix_or_infix_of_append_cons {part before behind : List Char} {d : Char} (hd : d ∉ part)
    (h : part <:+: before ++ d :: behind) : part <:+: before ∨ part <:+: behind := by
  obtain ⟨left, right, hsplit⟩ := h
  rcases List.append_eq_append_iff.1 hsplit with ⟨more, hbefore, -⟩ | ⟨more, hleft, hright⟩
  · exact .inl ⟨left, more, hbefore.symm⟩
  cases more with
  | nil => exact .inl ⟨left, [], by rw [List.append_nil, hleft, List.append_nil]⟩
  | cons e more =>
      obtain ⟨rfl, rfl⟩ := List.cons.inj hright
      rcases List.append_eq_append_iff.1 hleft with ⟨inner, -, hpart⟩ | ⟨inner, -, hpart⟩
      · exact absurd (hpart ▸ by simp) hd
      cases inner with
      | nil =>
          rw [List.nil_append] at hpart
          exact absurd (hpart ▸ List.mem_cons_self) hd
      | cons f inner =>
          obtain ⟨-, rfl⟩ := List.cons.inj hpart
          exact .inr ⟨inner, right, rfl⟩

/-- A string or comment that is open stays so before text without the characters that would
end it. -/
lemma first_of_open {c : Char} {rest more : List Char}
    (h : (first c rest).1.IsOpenString ∨ (first c rest).1.IsOpenComment)
    (hquote : '"' ∉ more) (hstar : '*' ∉ more) :
    (first c rest).2 = [] ∧
      first c (rest ++ '\n' :: more) =
        (⟨(first c rest).1.rule, c :: (rest ++ '\n' :: more)⟩, []) := by
  have hmatch := matches_first c rest
  have happ := first_append c rest
  generalize first c rest = result at h hmatch happ ⊢
  obtain ⟨⟨rule, text⟩, behind⟩ := result
  rcases h with h | ⟨h, hopen⟩
  · obtain rfl : rule = .error .unterminatedString := h
    cases hmatch with
    | shape hshape =>
        cases hshape with
        | openString hbody =>
            rw [List.append_nil] at happ
            obtain ⟨rfl, rfl⟩ := List.cons.inj happ
            refine ⟨rfl, first_of_shape (.openString ?_)⟩
            simp [hbody, hquote]
  · obtain rfl : rule = .blockComment := h
    cases hmatch with
    | shape hshape =>
        cases hshape with
        | @blockComment body _ _ => exact absurd ⟨body, [], by simp⟩ hopen
        | @openComment body hbody =>
            rw [List.append_nil] at happ
            obtain ⟨rfl, rfl⟩ := List.cons.inj happ
            refine ⟨rfl, first_of_shape (.openComment fun hwithin => ?_)⟩
            rcases infix_or_infix_of_append_cons (by decide) hwithin with hwithin | hwithin
            · exact hbody hwithin
            · exact hstar (hwithin.subset List.mem_cons_self)

/-- **What is left open swallows what is put behind it**, if nothing there ends it. -/
theorem filterMap_lexeme?_of_open {source more : List Char}
    (h : ∃ segment ∈ cut source, segment.IsOpenString ∨ segment.IsOpenComment)
    (hquote : '"' ∉ more) (hstar : '*' ∉ more) :
    (cut (source ++ '\n' :: more)).filterMap lexeme? = (cut source).filterMap lexeme? := by
  induction source using cut.induct with
  | case1 => simp [cut] at h
  | case2 c rest ih =>
      by_cases hfirst : (first c rest).1.IsOpenString ∨ (first c rest).1.IsOpenComment
      · obtain ⟨hrest, hlonger⟩ := first_of_open hfirst hquote hstar
        have hkind : (first c rest).1.rule.kind? = none := by
          rcases hfirst with h | ⟨h, -⟩ <;> rw [h] <;> rfl
        rw [List.cons_append, cut, cut, hlonger, hrest, cut]
        simp [lexeme?, hkind]
      · rw [cut] at h
        obtain ⟨segment, hmem, hopen⟩ := h
        obtain rfl | hmem := List.mem_cons.1 hmem
        · exact absurd hopen hfirst
        rw [not_or] at hfirst
        rw [List.cons_append, cut, first_before delimiter_newline (not_runsOver_newline hfirst),
          cut, List.filterMap_cons, List.filterMap_cons, ih ⟨segment, hmem, hopen⟩]

end Segment

lemma length_tokens_scan (source : String) :
    (scan source).tokens.length = ((Segment.cut source.toList).filterMap lexeme?).length + 1 := by
  have hall : (scan source).tokens.map (fun t => (t.kind, t.lexeme)) = _ :=
    tokens_ofSegments _ _ _
  simpa using congrArg List.length hall

/-- **Scanning starts afresh at a line feed exactly behind the sources that leave no string
and no comment open.** Behind such a source and a line feed, every other source has the
tokens and the report that it has alone, further down by the lines of the first one and the
line feed. -/
theorem scan_restarts_iff (source : String) :
    (¬ EndsInString source ∧ ¬ EndsInComment source) ↔
      ∀ more,
        (scan (source ++ "\n" ++ more)).tokens =
          (scan source).tokens.dropLast ++ (scan more).tokens.map
            (Token.moved (Position.below (1 + source.toList.count '\n'))) ∧
        (scan (source ++ "\n" ++ more)).report =
          (scan source).report ++ (scan more).report.map
            (Diagnostic.below (1 + source.toList.count '\n')) := by
  constructor
  · rintro ⟨hstring, hcomment⟩ more
    rw [scan_append_newline hstring hcomment more]
    exact ⟨rfl, rfl⟩
  · intro h
    by_contra hopen
    have hexists : ∃ segment ∈ Segment.cut source.toList,
        segment.IsOpenString ∨ segment.IsOpenComment := by
      rw [not_and_or, not_not, not_not] at hopen
      rcases hopen with ⟨segment, hmem, hopen⟩ | ⟨segment, hmem, hopen⟩
      · exact ⟨segment, hmem, .inl hopen⟩
      · exact ⟨segment, hmem, .inr hopen⟩
    -- A word on the next line is no token, and it would have to be one.
    have hlength := congrArg List.length (h "a").1
    have htext : (source ++ "\n" ++ "a").toList = source.toList ++ '\n' :: ['a'] := by simp
    have hword : (scan "a").tokens.length = 2 := by decide +kernel
    rw [List.length_append, List.length_dropLast, List.length_map, hword, length_tokens_scan,
      length_tokens_scan, htext,
      Segment.filterMap_lexeme?_of_open hexists (by decide) (by decide)] at hlength
    omega

end Scriptlet
