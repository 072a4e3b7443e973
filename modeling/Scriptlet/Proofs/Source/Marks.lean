import Mathlib.Data.List.DropRight
import Mathlib.Tactic.Lemma
import Scriptlet.Source.LineMark
import Scriptlet.Source.Position

/-!
Line marks and positions against a plain count.

The text that has been passed decides everything: the line is counted by its
line feeds, the line starts behind the last of them, and the column is counted
by the characters since then. Offsets are bytes and columns are characters, so
both are tied to the passed text and never to each other.

* `Position.behind`, `LineMark.behind`: position and mark behind a text, by
  counting.
* `Position.past`, `Position.behind_append`: counting on from a position, character
  by character.
* `LineMark.advance_behind`: passing text piece by piece keeps the mark right.
* `LineMark.columnOf_behind`: the mark gives the true column.
* `slice?_append`: what stands between two places of a text.
-/

namespace Scriptlet

/-! ### Bytes of text -/

@[simp]
lemma byteLength_nil : byteLength [] = 0 := rfl

@[simp]
lemma byteLength_cons (c : Char) (text : List Char) :
    byteLength (c :: text) = c.utf8Size + byteLength text := rfl

@[simp]
lemma byteLength_append (s t : List Char) :
    byteLength (s ++ t) = byteLength s + byteLength t := by
  induction s with
  | nil => simp
  | cons c s ih => rw [List.cons_append, byteLength_cons, ih, byteLength_cons, Nat.add_assoc]

lemma byteLength_toList (source : String) : byteLength source.toList = source.utf8ByteSize := by
  have h : ∀ text : List Char, byteLength text = (String.ofList text).utf8ByteSize := by
    intro text
    induction text with
    | nil => rw [byteLength_nil, String.ofList_nil, String.utf8ByteSize_empty]
    | cons c text ih =>
        rw [byteLength_cons, ih, String.ofList_cons, String.utf8ByteSize_append,
          String.utf8ByteSize_singleton]
  rw [h, String.ofList_toList]

/-! ### Counting -/

/-- The position behind text at the start of a source, by counting: its line
feeds, and its characters behind the last of them. -/
def Position.behind (text : List Char) : Position :=
  ⟨1 + text.count '\n', 1 + (text.rtakeWhile (· != '\n')).length⟩

namespace Position

/-- The position behind a character that stands at a position. -/
def past (p : Position) (c : Char) : Position :=
  if c = '\n' then ⟨p.line + 1, 1⟩ else ⟨p.line, p.column + 1⟩

lemma behind_concat (text : List Char) (c : Char) :
    behind (text ++ [c]) = (behind text).past c := by
  by_cases hc : c = '\n'
  · rw [past, if_pos hc, hc, behind, List.rtakeWhile_concat_neg _ _ _ (by decide),
      List.count_append, List.count_singleton_self, ← Nat.add_assoc]
    rfl
  · have hsingle : [c].count '\n' = 0 := List.count_eq_zero.2 (by simpa using Ne.symm hc)
    rw [past, if_neg hc, behind, List.rtakeWhile_concat_pos _ _ _ (by simpa using hc),
      List.count_append, hsingle, List.length_append, List.length_singleton, ← Nat.add_assoc]
    rfl

/-- The position behind more text depends on nothing but that text and the position
before it. -/
lemma behind_append (before text : List Char) :
    behind (before ++ text) = text.foldl past (behind before) := by
  induction text using List.reverseRecOn with
  | nil => rw [List.append_nil, List.foldl_nil]
  | append_singleton text c ih =>
      rw [← List.append_assoc, behind_concat, ih, List.foldl_append, List.foldl_cons,
        List.foldl_nil]

lemma line_foldl_past (p : Position) (text : List Char) :
    (text.foldl past p).line = p.line + text.count '\n' := by
  induction text generalizing p with
  | nil => rfl
  | cons c text ih =>
      rw [List.foldl_cons, ih, List.count_cons, past]
      by_cases hc : c = '\n'
      · simp only [hc, if_true, beq_self_eq_true]
        omega
      · simp [hc]

lemma foldl_past_of_notMem (p : Position) {text : List Char} (h : '\n' ∉ text) :
    text.foldl past p = ⟨p.line, p.column + text.length⟩ := by
  induction text generalizing p with
  | nil => rfl
  | cons c text ih =>
      rw [List.mem_cons, not_or] at h
      rw [List.foldl_cons, ih _ h.2, past, if_neg (Ne.symm h.1), List.length_cons]
      simp only [Position.mk.injEq, true_and]
      omega

/-- No two places of a source have the same position. -/
lemma behind_append_ne (before : List Char) {text : List Char} (h : text ≠ []) :
    behind (before ++ text) ≠ behind before := by
  intro heq
  rw [behind_append] at heq
  have hline := line_foldl_past (behind before) text
  rw [heq] at hline
  have hnone : '\n' ∉ text := List.count_eq_zero.1 (by omega)
  rw [foldl_past_of_notMem _ hnone] at heq
  have hcolumn := congrArg Position.column heq
  have hpos := List.length_pos_iff.2 h
  dsimp only at hcolumn
  omega

end Position

namespace LineMark

/-- The mark behind text at the start of a source, by counting: its line feeds,
and its bytes through the last of them. -/
def behind (text : List Char) : LineMark :=
  ⟨1 + text.count '\n', byteLength (text.rdropWhile (· != '\n'))⟩

lemma behind_newline (text : List Char) :
    behind (text ++ ['\n']) = ⟨(behind text).line + 1, byteLength (text ++ ['\n'])⟩ := by
  rw [behind, behind, List.rdropWhile_concat_neg _ _ _ (by decide), List.count_append,
    List.count_singleton_self, Nat.add_assoc]

lemma behind_append_of_notMem (text : List Char) {more : List Char} (h : '\n' ∉ more) :
    behind (text ++ more) = behind text := by
  induction more using List.reverseRecOn with
  | nil => rw [List.append_nil]
  | append_singleton more c ih =>
      have hc : c ≠ '\n' := by
        rintro rfl
        exact h (by simp)
      have hcount : (text ++ more ++ [c]).count '\n' = (text ++ more).count '\n' := by
        have hsingle : [c].count '\n' = 0 := List.count_eq_zero.2 (by simpa using Ne.symm hc)
        rw [List.count_append, hsingle, Nat.add_zero]
      rw [← List.append_assoc, ← ih fun hmem => h (by simp [hmem]), behind, behind, hcount,
        List.rdropWhile_concat_pos _ _ _ (by simpa using hc)]

/-- Passing text piece by piece keeps the mark right. -/
theorem advance_behind (before text : List Char) :
    (behind before).advance (byteLength before) text = behind (before ++ text) := by
  induction text generalizing before with
  | nil => rw [advance, List.append_nil]
  | cons c text ih =>
      have hnext : byteLength before + c.utf8Size = byteLength (before ++ [c]) := by simp
      have hstep : (behind before).advance (byteLength before) (c :: text) =
          (behind (before ++ [c])).advance (byteLength (before ++ [c])) text := by
        rw [advance, hnext]
        by_cases hc : c = '\n'
        · rw [if_pos hc, hc, behind_newline]
        · have hc' : '\n' ∉ [c] := by simpa using Ne.symm hc
          rw [if_neg hc, behind_append_of_notMem before hc']
      calc (behind before).advance (byteLength before) (c :: text)
          = (behind (before ++ [c])).advance (byteLength (before ++ [c])) text := hstep
        _ = behind (before ++ [c] ++ text) := ih _
        _ = behind (before ++ c :: text) := by rw [List.append_assoc, List.singleton_append]

/-! ### Columns -/

lemma dropBytes?_cons (c : Char) (text : List Char) (bytes : Nat) :
    dropBytes? (c.utf8Size + bytes) (c :: text) = dropBytes? bytes text := by
  obtain ⟨n, hn⟩ : ∃ n, c.utf8Size = n + 1 := Nat.exists_eq_succ_of_ne_zero c.utf8Size_pos.ne'
  have hsum : c.utf8Size + bytes = (n + bytes) + 1 := by omega
  have hrest : n + bytes + 1 - c.utf8Size = bytes := by omega
  rw [hsum, dropBytes?, if_pos (by omega), hrest]

lemma dropBytes?_append (before rest : List Char) :
    dropBytes? (byteLength before) (before ++ rest) = some rest := by
  induction before with
  | nil => rw [byteLength_nil, List.nil_append, dropBytes?]
  | cons c before ih => rw [byteLength_cons, List.cons_append, dropBytes?_cons, ih]

lemma charsWithin?_cons (c : Char) (text : List Char) (bytes : Nat) :
    charsWithin? (c.utf8Size + bytes) (c :: text) = (charsWithin? bytes text).map (· + 1) := by
  obtain ⟨n, hn⟩ : ∃ n, c.utf8Size = n + 1 := Nat.exists_eq_succ_of_ne_zero c.utf8Size_pos.ne'
  have hsum : c.utf8Size + bytes = (n + bytes) + 1 := by omega
  have hrest : n + bytes + 1 - c.utf8Size = bytes := by omega
  rw [hsum, charsWithin?, if_pos (by omega), hrest]

lemma charsWithin?_append (text rest : List Char) :
    charsWithin? (byteLength text) (text ++ rest) = some text.length := by
  induction text with
  | nil => rw [byteLength_nil, List.nil_append, charsWithin?, List.length_nil]
  | cons c text ih =>
      rw [byteLength_cons, List.cons_append, charsWithin?_cons, ih, Option.map_some,
        List.length_cons]

/-- The mark behind a text gives the column of the next character. -/
theorem columnOf_behind (before rest : List Char) :
    (behind before).columnOf (before ++ rest) (byteLength before) =
      (Position.behind before).column := by
  -- The text up to the start of its last line, and the last line itself.
  let lines := before.rdropWhile (· != '\n')
  let line := before.rtakeWhile (· != '\n')
  have hbefore : before = lines ++ line := List.rdropWhile_append_rtakeWhile.symm
  have hstart : (behind before).start = byteLength lines := rfl
  have hlength : byteLength before = byteLength lines + byteLength line := by
    rw [hbefore, byteLength_append]
  have hdrop : dropBytes? (byteLength lines) (before ++ rest) = some (line ++ rest) := by
    rw [hbefore, List.append_assoc, dropBytes?_append]
  rw [columnOf, hstart, if_pos (by omega), hdrop, hlength, Nat.add_sub_cancel_left]
  show (charsWithin? (byteLength line) (line ++ rest)).getD 0 + 1 = 1 + line.length
  rw [charsWithin?_append, Option.getD_some, Nat.add_comm]

end LineMark

/-! ### Slices -/

/-- The text between two byte offsets at the edges of characters. -/
lemma slice?_append (before text rest : List Char) :
    slice? (byteLength before) (byteLength before + byteLength text) (before ++ text ++ rest) =
      some text := by
  rw [slice?, if_pos (Nat.le_add_right _ _), List.append_assoc, LineMark.dropBytes?_append,
    Option.bind_some, Nat.add_sub_cancel_left, LineMark.charsWithin?_append, Option.map_some,
    List.take_left]

end Scriptlet
