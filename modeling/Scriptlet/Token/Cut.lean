import Scriptlet.Token.Segment

/-!
A source as its segments, from left to right.

* `Segment.first_append`: the first segment and the rest make up the source.
* `Segment.first_ne_nil`: no segment is empty, so the rest is shorter.
* `Segment.cut`: all segments of a source.
* `Segment.flatMap_cut`: the segments, put together again, are the source.
-/

namespace Scriptlet.Segment

/-! ### Nothing is lost -/

theorem number_append (source : List Char) :
    (number source).1 ++ (number source).2 = source := by
  have whole := List.takeWhile_append_dropWhile (p := Char.isDigit) (l := source)
  rw [number]
  split
  · rename_i digit more h
    split
    · rw [h] at whole
      simpa [List.takeWhile_append_dropWhile] using whole
    · exact whole
  · exact whole

theorem string_append (source : List Char) :
    (string source).1.text ++ (string source).2 = '"' :: source := by
  have whole := List.takeWhile_append_dropWhile (p := (· != '"')) (l := source)
  rw [string]
  split
  · rename_i quote rest h
    rw [h] at whole
    simpa using whole
  · rename_i h
    rw [h] at whole
    simpa using whole

theorem throughCommentEnd_append (source : List Char) :
    (throughCommentEnd source).1 ++ (throughCommentEnd source).2 = source := by
  induction source using throughCommentEnd.induct with
  | case1 => rfl
  | case2 rest => rfl
  | case3 c rest _ ih =>
      rw [throughCommentEnd]
      · simpa using ih
      · assumption

theorem shortSymbol_append (c : Char) (rest : List Char) :
    (shortSymbol c rest).1.text ++ (shortSymbol c rest).2 = c :: rest := by
  rw [shortSymbol]
  split <;> rfl

theorem symbol_append (c : Char) (rest : List Char) :
    (symbol c rest).1.text ++ (symbol c rest).2 = c :: rest := by
  rw [symbol.eq_def]
  split
  · exact shortSymbol_append c []
  · split
    · rfl
    · exact shortSymbol_append c _

theorem slash_append (rest : List Char) :
    (slash rest).1.text ++ (slash rest).2 = '/' :: rest := by
  rw [slash.eq_def]
  split
  · simp [List.takeWhile_append_dropWhile]
  · simp [throughCommentEnd_append]
  · exact symbol_append '/' _

/-- The first segment and what follows it make up the source. -/
theorem first_append (c : Char) (rest : List Char) :
    (first c rest).1.text ++ (first c rest).2 = c :: rest := by
  rw [first]
  split
  · simp [List.takeWhile_append_dropWhile]
  split
  · rfl
  split
  · rename_i h
    rw [h]
    exact string_append rest
  split
  · rename_i h
    rw [h]
    exact slash_append rest
  split
  · exact number_append (c :: rest)
  split
  · simp [List.takeWhile_append_dropWhile]
  · exact symbol_append c rest

/-! ### Every segment takes something -/

theorem number_ne_nil {c : Char} (rest : List Char) (h : c.isDigit = true) :
    (number (c :: rest)).1 ≠ [] := by
  rw [number]
  split
  · split <;> simp [h]
  · simp [h]

theorem shortSymbol_ne_nil (c : Char) (rest : List Char) : (shortSymbol c rest).1.text ≠ [] := by
  rw [shortSymbol]
  split <;> simp

theorem symbol_ne_nil (c : Char) (rest : List Char) : (symbol c rest).1.text ≠ [] := by
  rw [symbol.eq_def]
  split
  · exact shortSymbol_ne_nil c []
  · split
    · simp
    · exact shortSymbol_ne_nil c _

theorem slash_ne_nil (rest : List Char) : (slash rest).1.text ≠ [] := by
  rw [slash.eq_def]
  split
  · simp
  · simp
  · exact symbol_ne_nil '/' _

/-- No segment is empty. -/
theorem first_ne_nil (c : Char) (rest : List Char) : (first c rest).1.text ≠ [] := by
  rw [first]
  split
  · simp
  split
  · simp
  split
  · rw [string]
    split <;> simp
  split
  · exact slash_ne_nil rest
  split
  · rename_i h
    exact number_ne_nil rest h
  split
  · simp
  · exact symbol_ne_nil c rest

/-- What follows the first segment is shorter than the source. -/
theorem length_first_lt (c : Char) (rest : List Char) :
    (first c rest).2.length < (c :: rest).length := by
  have whole := congrArg List.length (first_append c rest)
  have some := List.length_pos_iff.2 (first_ne_nil c rest)
  rw [List.length_append] at whole
  omega

/-! ### All segments -/

/-- The segments of a source, from left to right. -/
def cut : List Char → List Segment
  | [] => []
  | c :: rest => (first c rest).1 :: cut (first c rest).2
termination_by source => source.length
decreasing_by exact length_first_lt c rest

/-- The segments, put together again, are the source. -/
theorem flatMap_cut (source : List Char) : (cut source).flatMap (·.text) = source := by
  induction source using cut.induct with
  | case1 => simp [cut]
  | case2 c rest ih => rw [cut, List.flatMap_cons, ih, first_append]

end Scriptlet.Segment
