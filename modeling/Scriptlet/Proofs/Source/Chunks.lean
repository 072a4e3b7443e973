import Scriptlet.Proofs.Source.Marks

/-!
Line marks and the way in which text is cut.

A mark is fed with a source chunk by chunk: a token, a comment, a blank, whatever is passed at
once. Line feeds may stand at the edges of chunks, several may stand in one, and chunks may be
empty. The mark is always the one that counting gives for all the text passed so far, so the
cuts leave no trace in it.

* `LineMark.advanceAll`: feeds a mark with chunks, each at its own byte offset.
* `LineMark.advanceAll_behind`: feeding keeps the mark right.
* `LineMark.exists_lines`: the start of the last line splits a text.
* `LineMark.advanceAll_counts`: line, line start and columns behind any chunks.
-/

namespace Scriptlet.LineMark

/-- Passes chunks of text one behind the other, the first of which starts at byte `offset`. -/
def advanceAll (mark : LineMark) (offset : Nat) : (chunks : List (List Char)) → LineMark
  | [] => mark
  | chunk :: chunks =>
    (mark.advance offset chunk).advanceAll (offset + byteLength chunk) chunks

/-- **Chunks leave the mark where their joint text leaves it.** -/
theorem advanceAll_behind (before : List Char) (chunks : List (List Char)) :
    (behind before).advanceAll (byteLength before) chunks = behind (before ++ chunks.flatten) := by
  induction chunks generalizing before with
  | nil => rw [advanceAll, List.flatten_nil, List.append_nil]
  | cons chunk chunks ih =>
      rw [advanceAll, advance_behind, ← byteLength_append, ih, List.append_assoc,
        List.flatten_cons]

/-- A text falls into its finished lines and the line that it ends in. The mark behind the text
starts between the two, and a position on that line counts the characters since then. -/
lemma exists_lines (text : List Char) :
    ∃ lines line, text = lines ++ line ∧ (lines = [] ∨ lines.getLast? = some '\n') ∧
      '\n' ∉ line ∧ (behind text).start = byteLength lines ∧
      (Position.behind text).column = 1 + line.length := by
  refine ⟨text.rdropWhile (· != '\n'), text.rtakeWhile (· != '\n'),
    List.rdropWhile_append_rtakeWhile.symm, ?_, ?_, rfl, rfl⟩
  · rcases List.eq_nil_or_concat (text.rdropWhile (· != '\n')) with hlines | ⟨before, c, hlines⟩
    · exact .inl hlines
    · have hlast := List.rdropWhile_last_not (· != '\n') text (by simp [hlines])
      simp only [hlines, List.concat_eq_append, List.getLast_append_singleton] at hlast
      rw [hlines, List.concat_eq_append, List.getLast?_concat]
      simpa using hlast
  · intro hmem
    have := List.mem_rtakeWhile_imp hmem
    contradiction

/-- **Line bookkeeping does not depend on how text is cut, and gives true columns.** Let a new
mark be fed with the text before some place of a source, cut into chunks in any way. Its line is
counted by the line feeds of that text, and it starts behind the last of them. For every later
place on the same line it gives the column that is counted by the characters since then. -/
theorem advanceAll_counts (source passed : List Char) :
    ∃ lines line, passed = lines ++ line ∧ (lines = [] ∨ lines.getLast? = some '\n') ∧
      '\n' ∉ line ∧
      ∀ chunks : List (List Char), chunks.flatten = passed →
        (advanceAll {} 0 chunks).line = 1 + passed.count '\n' ∧
        (advanceAll {} 0 chunks).start = byteLength lines ∧
        ∀ more, passed ++ more <+: source → '\n' ∉ more →
          (advanceAll {} 0 chunks).columnOf source (byteLength (passed ++ more)) =
            1 + (line ++ more).length := by
  obtain ⟨lines, line, hpassed, hlines, hline, hstart, hcolumn⟩ := exists_lines passed
  refine ⟨lines, line, hpassed, hlines, hline, ?_⟩
  intro chunks hchunks
  have hmark : advanceAll {} 0 chunks = behind passed := by
    rw [← hchunks]
    exact advanceAll_behind [] chunks
  refine ⟨by rw [hmark]; rfl, by rw [hmark, hstart], ?_⟩
  rintro more ⟨rest, rfl⟩ hmore
  have hlater : (Position.behind (passed ++ more)).column = 1 + line.length + more.length := by
    rw [Position.behind_append, Position.foldl_past_of_notMem _ hmore, hcolumn]
  rw [hmark, ← behind_append_of_notMem passed hmore, columnOf_behind, hlater, List.length_append,
    Nat.add_assoc]

/-- A cut between two line feeds, with an empty chunk there, and characters of two bytes on both
sides. -/
theorem advanceAll_counts_between_newlines :
    let passed := ['é', '\n', '\n', 'ß']
    let chunks := [['é', '\n'], [], ['\n', 'ß']]
    let mark : LineMark := advanceAll {} 0 chunks
    chunks.flatten = passed ∧ passed ++ ['a'] <+: passed ++ ['a', ';'] ∧ '\n' ∉ ['a'] ∧
    ∃ lines line, passed = lines ++ line ∧ (lines = [] ∨ lines.getLast? = some '\n') ∧
      '\n' ∉ line ∧ mark.line = 3 ∧ mark.start = byteLength lines ∧
      mark.columnOf (passed ++ ['a', ';']) 7 = 1 + (line ++ ['a']).length := by
  intro passed chunks mark
  obtain ⟨lines, line, hpassed, hlines, hline, hall⟩ :=
    advanceAll_counts (passed ++ ['a', ';']) passed
  obtain ⟨hnumber, hstart, hcolumn⟩ := hall chunks rfl
  have hmore : passed ++ ['a'] <+: passed ++ ['a', ';'] := ⟨[';'], rfl⟩
  exact ⟨rfl, hmore, by decide, lines, line, hpassed, hlines, hline, hnumber, hstart,
    hcolumn ['a'] hmore (by decide)⟩

end Scriptlet.LineMark
