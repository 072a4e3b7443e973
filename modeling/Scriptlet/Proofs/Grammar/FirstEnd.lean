import Mathlib.Data.List.TakeWhile
import Scriptlet.Proofs.Grammar.Following
import Scriptlet.Token.Scan

/-!
Reading ends at the first end marker.

* `Token.beforeEnd`, `Token.firstEnd`: the tokens up to the first end marker, and that marker.
* `Reader.terminated_eq`: all that a reader has are these and what stands behind them.
* `Reader.ofTokens_follows`: a reader comes to its end and gives the program and the complaints.
* `reading_heeds_first_end`: what stands behind the first end marker makes no difference.
-/

namespace Scriptlet

/-! ### The first end marker -/

namespace Token

/-- The tokens before the first end marker. -/
def beforeEnd (tokens : List Token) : List Token := tokens.takeWhile (!·.isEnd)

/-- The first end marker, or the one that is assumed behind tokens without any. -/
def firstEnd (tokens : List Token) : Token := (tokens.find? (·.isEnd)).getD (.endBehind tokens)

lemma isEnd_endBehind (tokens : List Token) : (endBehind tokens).isEnd := by
  unfold endBehind
  split <;> rfl

lemma isEnd_firstEnd (tokens : List Token) : (firstEnd tokens).isEnd := by
  rw [firstEnd]
  cases hfind : tokens.find? (·.isEnd) with
  | none => exact isEnd_endBehind tokens
  | some stop => exact List.find?_some hfind

lemma not_isEnd_of_mem_beforeEnd {tokens : List Token} {token : Token}
    (h : token ∈ beforeEnd tokens) : ¬ token.isEnd := by
  simpa using List.mem_takeWhile_imp h

variable {body : List Token} {stop : Token}

lemma beforeEnd_append (hbody : ∀ token ∈ body, ¬ token.isEnd) (hstop : stop.isEnd)
    (behind : List Token) : beforeEnd (body ++ stop :: behind) = body := by
  rw [beforeEnd, List.takeWhile_append_of_pos (by simpa using hbody),
    List.takeWhile_cons_of_neg (by simpa using hstop), List.append_nil]

lemma firstEnd_append (hbody : ∀ token ∈ body, ¬ token.isEnd) (hstop : stop.isEnd)
    (behind : List Token) : firstEnd (body ++ stop :: behind) = stop := by
  have hfind : body.find? (·.isEnd) = none := List.find?_eq_none.2 hbody
  rw [firstEnd, List.find?_append, hfind, Option.none_or, List.find?_cons_of_pos hstop,
    Option.getD_some]

/-- Tokens with an end marker among them are cut at the first one. -/
lemma exists_first_end {tokens : List Token} (h : ∃ token ∈ tokens, token.isEnd) :
    ∃ body stop behind, tokens = body ++ stop :: behind ∧ stop.isEnd ∧
      ∀ token ∈ body, ¬ token.isEnd := by
  obtain ⟨stop, hfind⟩ := Option.isSome_iff_exists.1 (List.find?_isSome.2 h)
  obtain ⟨hstop, body, behind, htokens, hbody⟩ := List.find?_eq_some_iff_append.1 hfind
  exact ⟨body, stop, behind, htokens, hstop, by simpa using hbody⟩

end Token

lemma Parse.ofTokens_eq (tokens : List Token) :
    ofTokens tokens =
      ⟨(Grammar.declarations (Token.firstEnd tokens) (Token.beforeEnd tokens)).1,
        (Grammar.declarations (Token.firstEnd tokens) (Token.beforeEnd tokens)).2⟩ := rfl

/-! ### Readers -/

namespace Reader

/-- Reading ends at the first end marker, be it among the tokens or assumed behind them. -/
lemma terminated_eq (tokens : List Token) :
    ∃ behind, terminated tokens = Token.beforeEnd tokens ++ Token.firstEnd tokens :: behind := by
  by_cases h : ∃ token ∈ tokens, token.isEnd
  · obtain ⟨body, stop, behind, rfl, hstop, hbody⟩ := Token.exists_first_end h
    rw [Token.beforeEnd_append hbody hstop, Token.firstEnd_append hbody hstop, terminated]
    split
    · exact ⟨behind, rfl⟩
    · exact ⟨behind ++ [_], by rw [List.append_assoc, List.cons_append]⟩
  · have hnone : ∀ token ∈ tokens, ¬ token.isEnd := fun token htoken hend => h ⟨token, htoken, hend⟩
    have hlast : tokens.getLast?.any (·.isEnd) ≠ true := by
      rw [ne_eq, Option.any_eq_true]
      rintro ⟨last, hlast, hend⟩
      exact hnone last (List.mem_of_getLast? hlast) hend
    have hbody : Token.beforeEnd tokens = tokens :=
      List.takeWhile_eq_self_iff.2 (by simpa using hnone)
    have hfind : tokens.find? (·.isEnd) = none := List.find?_eq_none.2 hnone
    refine ⟨[], ?_⟩
    rw [terminated, if_neg hlast, hbody, Token.firstEnd, hfind, Option.getD_none]

/-- **Reading ends, and gives what the grammar says.** The reader comes to stand at the first
end marker and has visited no place behind it. -/
theorem ofTokens_follows (tokens : List Token) :
    ∃ reader, Ends (ofTokens tokens) {} (.ok (Parse.ofTokens tokens).program) reader ∧
      reader.notes = (Parse.ofTokens tokens).complaints ∧
      (terminated tokens)[reader.place]? = some (Token.firstEnd tokens) ∧
      ∀ index ∈ reader.visited, index ≤ (Token.beforeEnd tokens).length := by
  obtain ⟨behind, hterminated⟩ := terminated_eq tokens
  let s : Stretch := ⟨terminated tokens, Token.firstEnd tokens, behind, Token.isEnd_firstEnd tokens⟩
  have hstart : s.Before (Token.beforeEnd tokens) {} :=
    ⟨fun _ => Token.not_isEnd_of_mem_beforeEnd, hterminated⟩
  have hlength := hstart.length_eq
  obtain ⟨reader, hends, hreader, hnotes, hkeeps⟩ := s.follows_program _ {} hstart
  refine ⟨reader, hends, hnotes, hreader.getElem?_place, ?_⟩
  intro index hindex
  obtain hzero | hlt := hkeeps index hindex
  · rw [List.mem_singleton.1 hzero]
    exact Nat.zero_le _
  · change s.tokens.length = 0 + _ at hlength
    omega

end Reader

/-- **Nothing behind the first end marker is observed.** Whatever stands behind it, the same
program is read and the same is reported. In both cases a reader that has all the tokens reads
just that: its cursor never comes to stand behind the first end marker, and it looks at no
token there. -/
theorem reading_heeds_first_end {body : List Token} {stop : Token}
    (hbody : ∀ token ∈ body, ¬ token.isEnd) (hstop : stop.isEnd) (behind : List Token) :
    (Parse.ofTokens (body ++ [stop] ++ behind)).program =
      (Parse.ofTokens (body ++ [stop])).program ∧
    (Parse.ofTokens (body ++ [stop] ++ behind)).report =
      (Parse.ofTokens (body ++ [stop])).report ∧
    ∀ tokens ∈ [body ++ [stop] ++ behind, body ++ [stop]],
      ∃ reader, Reader.Ends (Reader.ofTokens tokens) {} (.ok (Parse.ofTokens tokens).program)
          reader ∧
        reader.notes.map (·.diagnostic) = (Parse.ofTokens tokens).report ∧
        ∀ index ∈ reader.visited, index ≤ body.length ∧ index < tokens.length := by
  have hbefore (more : List Token) : Token.beforeEnd (body ++ [stop] ++ more) = body := by
    rw [List.append_assoc, List.singleton_append, Token.beforeEnd_append hbody hstop]
  have hfirst (more : List Token) : Token.firstEnd (body ++ [stop] ++ more) = stop := by
    rw [List.append_assoc, List.singleton_append, Token.firstEnd_append hbody hstop]
  have hparse : Parse.ofTokens (body ++ [stop] ++ behind) = Parse.ofTokens (body ++ [stop]) := by
    have hshort := Parse.ofTokens_eq (body ++ [stop] ++ [])
    rw [hbefore, hfirst, List.append_nil] at hshort
    rw [hshort, Parse.ofTokens_eq, hbefore, hfirst]
  have hreader (more : List Token) :
      ∃ reader, Reader.Ends (Reader.ofTokens (body ++ [stop] ++ more)) {}
          (.ok (Parse.ofTokens (body ++ [stop] ++ more)).program) reader ∧
        reader.notes.map (·.diagnostic) = (Parse.ofTokens (body ++ [stop] ++ more)).report ∧
        ∀ index ∈ reader.visited, index ≤ body.length ∧
          index < (body ++ [stop] ++ more).length := by
    obtain ⟨reader, hends, hnotes, -, hvisited⟩ := Reader.ofTokens_follows (body ++ [stop] ++ more)
    refine ⟨reader, hends, by rw [hnotes, Parse.report], ?_⟩
    intro index hindex
    have hle := hvisited index hindex
    rw [hbefore] at hle
    simp only [List.length_append, List.length_singleton]
    omega
  refine ⟨by rw [hparse], by rw [hparse], ?_⟩
  intro tokens htokens
  obtain rfl | rfl : tokens = body ++ [stop] ++ behind ∨ tokens = body ++ [stop] := by
    simpa using htokens
  · exact hreader behind
  · simpa only [List.append_nil] using hreader []

/-- A block is still open at the end. What would close it behind the end marker, and a second
end marker, do not help. -/
theorem reading_heeds_first_end_in_block :
    let body := (scan "\x7b print 1").tokens.dropLast
    let stop := Token.endOfInput ⟨1, 10⟩
    let behind := (scan "; \x7d").tokens
    (∀ token ∈ body, ¬ token.isEnd) ∧ stop.isEnd ∧
    (Parse.ofTokens (body ++ [stop] ++ behind)).report =
      [.malformed 1 none .endOfInput "Expect ';' after value.",
        .malformed 1 none .endOfInput "Expect '\x7d' after block."] ∧
    ∃ reader, Reader.Ends (Reader.ofTokens (body ++ [stop] ++ behind)) {} (.ok []) reader ∧
      ∀ index ∈ reader.visited, index ≤ 3 := by
  intro body stop behind
  have hbody : ∀ token ∈ body, ¬ token.isEnd := by decide +kernel
  have hstop : stop.isEnd := rfl
  have hlength : body.length = 3 := by decide +kernel
  have hreport : (Parse.ofTokens (body ++ [stop])).report =
      [.malformed 1 none .endOfInput "Expect ';' after value.",
        .malformed 1 none .endOfInput "Expect '\x7d' after block."] := by decide +kernel
  have hprogram : (Parse.ofTokens (body ++ [stop])).program = [] := by
    rw [← List.isEmpty_iff]
    decide +kernel
  obtain ⟨hsame, hreports, hreaders⟩ := reading_heeds_first_end hbody hstop behind
  obtain ⟨reader, hends, -, hvisited⟩ := hreaders _ List.mem_cons_self
  refine ⟨hbody, hstop, hreports.trans hreport, reader, ?_, ?_⟩
  · rwa [hsame, hprogram] at hends
  · intro index hindex
    exact hlength ▸ (hvisited index hindex).1

end Scriptlet
