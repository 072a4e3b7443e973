import Scriptlet.Proofs.Source.Marks
import Scriptlet.Proofs.Token.LongestMatch

/-!
Positions of tokens and lexical errors are exact.

A place of a source is a byte offset. Its line is counted by the line feeds
before it and its column by the characters since the last of them. The scanner
does not count. Its cursor is moved over one segment after the other, in a way
that depends on the rule of the segment, and the step lemma says that the
cursor stays the one that counting gives for the text passed so far.

* `takeBytes`, `positionAt`: the text before an offset, and the position there.
* `Cursor.pass_behind`: a segment moves the cursor behind its text.
* `Placed`, `placed`: the segments of a source with their offsets.
* `Placed.Yields`, `Placed.Complains`: the token of a segment, and what is reported about it,
  with the positions that counting gives.
* `scan_positions`: all tokens and the whole report.
* `exists_tokens_scan`: the end marker stands behind the tokens, and nowhere else.
-/

namespace Scriptlet

open Lexical (Matches IsCut isCut_iff)

/-! ### Places of a source -/

/-- The characters that end within the first bytes of a text. -/
def takeBytes : (bytes : Nat) → (text : List Char) → List Char
  | _, [] => []
  | bytes, c :: text =>
    if c.utf8Size ≤ bytes then c :: takeBytes (bytes - c.utf8Size) text else []

/-- The position of a byte of a source. -/
def positionAt (source : String) (offset : Nat) : Position :=
  .behind (takeBytes offset source.toList)

/-- Cutting at the end of a leading part gives that part. -/
lemma takeBytes_append (before rest : List Char) :
    takeBytes (byteLength before) (before ++ rest) = before := by
  induction before with
  | nil =>
      cases rest with
      | nil => rfl
      | cons c rest =>
          have hpos := c.utf8Size_pos
          rw [byteLength_nil, List.nil_append, takeBytes, if_neg (by omega)]
  | cons c before ih =>
      rw [List.cons_append, byteLength_cons, takeBytes, if_pos (by omega),
        Nat.add_sub_cancel_left, ih]

/-- A segment and the byte offset of its first character. -/
structure Placed where
  offset : Nat
  segment : Segment

namespace Placed

/-- The segment is a token. -/
def isToken (place : Placed) : Bool := place.segment.rule.kind?.isSome

/-- The segment is an error. -/
def isError (place : Placed) : Bool :=
  match place.segment.rule with
  | .error _ => true
  | _ => false

/-- The token is that of the segment, and its position is counted from the text before it. -/
structure Yields (source : String) (place : Placed) (token : Token) : Prop where
  rule : place.segment.rule = .token token.kind
  lexeme : token.lexeme.toList = place.segment.text
  position : token.position = positionAt source place.offset

/-- The diagnostic is about the segment, and its line and its column are counted from the text
before it. -/
def Complains (source : String) (place : Placed) (diagnostic : Diagnostic) : Prop :=
  ∃ cause, place.segment.rule = .error cause ∧
    diagnostic = .malformed (positionAt source place.offset).line
      (some (positionAt source place.offset).column) .unknown (cause.describe place.segment.text)

/-- Segments with their offsets, the first of which is given. -/
def row (offset : Nat) : List Segment → List Placed
  | [] => []
  | segment :: segments =>
    ⟨offset, segment⟩ :: row (offset + byteLength segment.text) segments

end Placed

/-- The segments of a source with their offsets. -/
def placed (source : String) : List Placed := Placed.row 0 (Segment.cut source.toList)

lemma Placed.map_segment_row (offset : Nat) (segments : List Segment) :
    (row offset segments).map (·.segment) = segments := by
  induction segments generalizing offset with
  | nil => rfl
  | cons segment segments ih => rw [row, List.map_cons, ih]

/-- The text of a placed segment stands at its offset. -/
lemma Placed.stands_of_mem_row {source before rest : List Char} {segments : List Segment}
    {place : Placed} (hsource : source = before ++ segments.flatMap (·.text) ++ rest)
    (h : place ∈ row (byteLength before) segments) :
    ∃ passed rest', source = passed ++ place.segment.text ++ rest' ∧
      byteLength passed = place.offset := by
  induction segments generalizing before with
  | nil => contradiction
  | cons segment segments ih =>
      rcases List.mem_cons.1 h with rfl | h
      · exact ⟨before, segments.flatMap (·.text) ++ rest, by simp [hsource], rfl⟩
      · rw [← byteLength_append] at h
        exact ih (by simp [hsource]) h

/-! ### The cursor -/

/-- The cursor behind text at the start of a source, by counting. -/
def Cursor.behind (text : List Char) : Cursor := ⟨byteLength text, .behind text⟩

lemma Cursor.position_behind (before rest : List Char) :
    (behind before).position (before ++ rest) = .behind before := by
  have hcolumn := LineMark.columnOf_behind before rest
  exact congrArg (Position.mk (1 + before.count '\n')) hcolumn

/-- The cursor behind a leading part of a source is where counting puts it. -/
lemma Cursor.position_eq_positionAt {source : String} {before rest : List Char}
    (hsource : source.toList = before ++ rest) :
    (behind before).position source.toList = positionAt source (byteLength before) := by
  rw [hsource, position_behind, positionAt, hsource, takeBytes_append]

lemma newline_notMem_blank {text rest : List Char} (h : Matches .blank text rest) :
    '\n' ∉ text := by
  cases h with
  | shape h =>
      cases h with
      | blank h =>
          intro hmem
          rcases h.2 _ hmem with h | h | h | h <;> contradiction

lemma newline_notMem_lineComment {text rest : List Char} (h : Matches .lineComment text rest) :
    '\n' ∉ text := by
  cases h with
  | shape h =>
      cases h with
      | lineComment h _ => simpa using h

/-- A segment moves the cursor behind its text. -/
theorem Cursor.pass_behind {segment : Segment} {rest : List Char}
    (h : Matches segment.rule segment.text rest) (before : List Char) :
    (behind before).pass segment = behind (before ++ segment.text) := by
  obtain ⟨rule, text⟩ := segment
  have hnext : byteLength before + byteLength text = byteLength (before ++ text) :=
    (byteLength_append before text).symm
  have hsearched : (LineMark.behind before).advance (byteLength before) text =
      LineMark.behind (before ++ text) := LineMark.advance_behind before text
  cases rule with
  | blank =>
      have hmark := LineMark.behind_append_of_notMem before (newline_notMem_blank h)
      exact congrArg₂ Cursor.mk hnext hmark.symm
  | newline =>
      cases h with
      | shape h =>
          cases h
          have hmark := LineMark.behind_newline before
          exact congrArg₂ Cursor.mk hnext (by rw [hmark, ← hnext]; rfl)
  | lineComment =>
      have hmark := LineMark.behind_append_of_notMem before (newline_notMem_lineComment h)
      exact congrArg₂ Cursor.mk hnext hmark.symm
  | blockComment => exact congrArg₂ Cursor.mk hnext hsearched
  | token kind => exact congrArg₂ Cursor.mk hnext hsearched
  | error cause => exact congrArg₂ Cursor.mk hnext hsearched

/-! ### The whole scan -/

/-- A walk whose cursor is right at the start puts every token and every
complaint where counting puts them. -/
theorem ofSegments_behind {source : String} {before rest : List Char} {segments : List Segment}
    (hcut : IsCut rest segments) (hsource : source.toList = before ++ rest) :
    let scanned := Scan.ofSegments source.toList (.behind before) segments
    let places := Placed.row (byteLength before) segments
    (∃ tokens, scanned.tokens =
        tokens ++ [⟨.endOfInput, "", none, positionAt source source.utf8ByteSize⟩] ∧
      List.Forall₂ (Placed.Yields source) (places.filter (·.isToken)) tokens) ∧
    List.Forall₂ (Placed.Complains source) (places.filter (·.isError)) scanned.report := by
  induction hcut generalizing before with
  | nil =>
      have hposition := Cursor.position_eq_positionAt hsource
      rw [List.append_nil] at hsource
      rw [Scan.ofSegments, hposition, ← byteLength_toList, hsource]
      exact ⟨⟨[], rfl, .nil⟩, .nil⟩
  | @cons segment rest segments h _ ih =>
      have hposition := Cursor.position_eq_positionAt hsource
      have hlater : source.toList = before ++ segment.text ++ rest := by
        rw [hsource, List.append_assoc]
      obtain ⟨⟨tokens, htokens, hyields⟩, hcomplains⟩ := ih hlater
      rw [byteLength_append] at hyields hcomplains
      rw [Scan.ofSegments, Cursor.pass_behind h.isMatch, hposition]
      obtain ⟨rule, text⟩ := segment
      cases rule with
      | token kind =>
          refine ⟨⟨.ofText kind text (positionAt source (byteLength before)) :: tokens, ?_, ?_⟩,
            hcomplains⟩
          · exact congrArg (List.cons _) htokens
          · exact .cons ⟨rfl, String.toList_ofList, rfl⟩ hyields
      | error cause => exact ⟨⟨tokens, htokens, hyields⟩, .cons ⟨cause, rfl, rfl⟩ hcomplains⟩
      | blank | newline | lineComment | blockComment =>
          exact ⟨⟨tokens, htokens, hyields⟩, hcomplains⟩

lemma isCut_cut (source : String) : IsCut source.toList (Segment.cut source.toList) :=
  isCut_iff.2 rfl

/-- **Positions are exact.** A source is cut into segments, each of which stands at its byte
offset. The tokens of a scan are those segments that are tokens, one by one, and an end marker;
the report is about those that are errors. Every token, every complaint and the end marker have
the position of their byte offset: the line is counted by the line feeds before it, and the
column by the characters since the last of them. -/
theorem scan_positions (source : String) :
    IsCut source.toList ((placed source).map (·.segment)) ∧
      (∀ place ∈ placed source,
        takeBytes place.offset source.toList ++ place.segment.text <+: source.toList ∧
          byteLength (takeBytes place.offset source.toList) = place.offset) ∧
      takeBytes source.utf8ByteSize source.toList = source.toList ∧
      (∃ tokens marker, (scan source).tokens = tokens ++ [marker] ∧
        List.Forall₂ (Placed.Yields source) ((placed source).filter (·.isToken)) tokens ∧
        marker.kind = .endOfInput ∧ marker.lexeme = "" ∧
        marker.position = positionAt source source.utf8ByteSize) ∧
      List.Forall₂ (Placed.Complains source) ((placed source).filter (·.isError))
        (scan source).report := by
  obtain ⟨⟨tokens, htokens, hyields⟩, hcomplains⟩ :=
    ofSegments_behind (isCut_cut source) (List.nil_append _).symm
  refine ⟨?_, ?_, ?_, ⟨tokens, _, htokens, hyields, rfl, rfl, rfl⟩, hcomplains⟩
  · rw [placed, Placed.map_segment_row]
    exact isCut_cut source
  · intro place hplace
    have hsource : source.toList =
        [] ++ (Segment.cut source.toList).flatMap (·.text) ++ [] := by
      rw [Segment.flatMap_cut, List.nil_append, List.append_nil]
    obtain ⟨passed, rest, hrest, hoffset⟩ := Placed.stands_of_mem_row hsource hplace
    have htake : takeBytes place.offset source.toList = passed := by
      rw [← hoffset, hrest, List.append_assoc, takeBytes_append]
    rw [htake]
    exact ⟨⟨rest, hrest.symm⟩, hoffset⟩
  · have htake := takeBytes_append source.toList []
    rwa [List.append_nil, byteLength_toList] at htake

/-- Tokens come from segments. -/
lemma Placed.exists_yields {source : String} {places : List Placed} {tokens : List Token}
    (h : List.Forall₂ (Yields source) places tokens) :
    ∀ token ∈ tokens, ∃ place ∈ places, place.Yields source token := by
  induction h with
  | nil => simp
  | @cons place token places tokens hyields _ ih =>
      refine List.forall_mem_cons.2 ⟨⟨place, List.mem_cons_self, hyields⟩, ?_⟩
      intro later hlater
      obtain ⟨place', hplace', hyields'⟩ := ih later hlater
      exact ⟨place', List.mem_cons_of_mem _ hplace', hyields'⟩

/-- The tokens of a source with an end marker behind them, and no other. -/
lemma exists_tokens_scan (source : String) :
    ∃ tokens position, (scan source).tokens = tokens ++ [.endOfInput position] ∧
      ∀ token ∈ tokens, ¬ token.isEnd := by
  have hcut := isCut_cut source
  obtain ⟨⟨tokens, htokens, hyields⟩, -⟩ := ofSegments_behind hcut (List.nil_append _).symm
  refine ⟨tokens, _, htokens, ?_⟩
  intro token htoken hend
  obtain ⟨place, hplace, hyield⟩ := Placed.exists_yields hyields token htoken
  have hsegment : place.segment ∈ Segment.cut source.toList := by
    rw [← Placed.map_segment_row _ (Segment.cut source.toList)]
    exact List.mem_map_of_mem (List.mem_of_mem_filter hplace)
  have hkind : token.kind = .endOfInput := by simpa [Token.isEnd] using hend
  exact hcut.not_endOfInput place.segment hsegment (by rw [hyield.rule, hkind])

lemma exists_isEnd_scan (source : String) : ∃ token ∈ (scan source).tokens, token.isEnd := by
  obtain ⟨tokens, position, htokens, -⟩ := exists_tokens_scan source
  rw [htokens]
  exact ⟨.endOfInput position, by simp, rfl⟩

end Scriptlet
