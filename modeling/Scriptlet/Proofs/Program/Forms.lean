import Scriptlet.Program.Printer
import Scriptlet.Proofs.Number.Floats
import Scriptlet.Proofs.Token.FirstSegment

/-!
The parenthesised text of a program tells the program.

Parenthesised text is an atom, or a head and further texts in parentheses, with a space before
each of them. Where heads and atoms are words, that is, have neither spaces nor parentheses, such
a text ends where it has to, whatever stands behind it. So it can be taken apart again, and from
its parts the node follows: by the head and by how many parts there are.

* `Form`, `Form.chars`: parenthesised text before and after it is written.
* `Form.eq_of_chars`: a text tells its form, and where it ends.
* `Expr.form`, `Statement.form`: programs as forms.
* `Expr.Same`, `Statement.Same`: programs that differ in their tokens only.
* `render_faithful`: programs with one text are the same.
-/

namespace Scriptlet

/-! ### Forms -/

/-- Parenthesised text: an atom, or a head with parts behind it. -/
inductive Form where
  | atom (text : List Char)
  | node (head : List Char) (parts : List Form)

namespace Form

/-- A word can stand in parenthesised text: it is not empty, and has no space and no
parenthesis. -/
def Clean (text : List Char) : Prop := text ≠ [] ∧ ∀ c ∈ text, c ≠ ' ' ∧ c ≠ '(' ∧ c ≠ ')'

instance (text : List Char) : Decidable (Clean text) :=
  decidable_of_iff (text ≠ [] ∧ text.all fun c => c != ' ' && c != '(' && c != ')')
    (by simp [Clean, and_assoc])

mutual

/-- The text of a form. -/
def chars : Form → List Char
  | .atom text => text
  | .node head parts => '(' :: head ++ tail parts ++ [')']

/-- The parts behind a head, each behind a space. -/
def tail : List Form → List Char
  | [] => []
  | part :: parts => ' ' :: part.chars ++ tail parts

end

mutual

/-- All heads and atoms are words. -/
def IsClean : Form → Prop
  | .atom text => Clean text
  | .node head parts => Clean head ∧ AreClean parts

/-- All heads and atoms of the parts are words. -/
def AreClean : List Form → Prop
  | [] => True
  | part :: parts => part.IsClean ∧ AreClean parts

end

/-- What can stand behind a form: nothing, a further part, or the end of the parts. -/
def Ends (rest : List Char) : Prop := ∀ c ∈ rest.head?, c = ' ' ∨ c = ')'

/-- Where a word ends can be seen. -/
lemma Clean.append_inj {text text' rest rest' : List Char} (h : Clean text) (h' : Clean text')
    (hrest : Ends rest) (hrest' : Ends rest') (heq : text ++ rest = text' ++ rest') :
    text = text' ∧ rest = rest' := by
  let p : Char → Bool := fun c => c != ' ' && c != ')'
  have hword : ∀ {text rest : List Char}, Clean text → Ends rest →
      (text ++ rest).takeWhile p = text := by
    intro text rest htext hend
    have hall : ∀ c ∈ text, p c = true := by
      intro c hc
      obtain ⟨hspace, -, hclose⟩ := htext.2 c hc
      simp [p, hspace, hclose]
    have hstop : rest.takeWhile p = [] := by
      cases rest with
      | nil => rfl
      | cons c rest =>
          refine List.takeWhile_cons_of_neg ?_
          obtain rfl | rfl := hend c rfl <;> decide
    rw [List.takeWhile_append_of_pos hall, hstop, List.append_nil]
  have htext : text = text' := by rw [← hword h hrest, heq, hword h' hrest']
  subst htext
  exact ⟨rfl, List.append_cancel_left heq⟩

lemma ends_tail (parts : List Form) (rest : List Char) : Ends (tail parts ++ ')' :: rest) := by
  cases parts with
  | nil => simp [tail, Ends]
  | cons part parts => simp [tail, Ends]

/-- No atom looks like a node. -/
lemma Clean.ne_open {text rest rest' : List Char} (h : Clean text) :
    text ++ rest ≠ '(' :: rest' := by
  obtain ⟨c, more, rfl⟩ := List.exists_cons_of_ne_nil h.1
  intro heq
  exact (h.2 c List.mem_cons_self).2.1 (List.cons.inj heq).1

lemma chars_node_append (head : List Char) (parts : List Form) (rest : List Char) :
    (node head parts).chars ++ rest = '(' :: (head ++ (tail parts ++ ')' :: rest)) := by
  simp [chars]

lemma tail_cons_append (part : Form) (parts : List Form) (rest : List Char) :
    tail (part :: parts) ++ rest = ' ' :: (part.chars ++ (tail parts ++ rest)) := by
  simp [tail]

mutual

/-- **A form is told by its text**, and so is what stands behind it. -/
theorem chars_append_inj : ∀ (form : Form) {form' : Form} {rest rest' : List Char},
    form.IsClean → form'.IsClean → Ends rest → Ends rest' →
      form.chars ++ rest = form'.chars ++ rest' → form = form' ∧ rest = rest'
  | .atom text, .atom text', rest, rest', h, h', hrest, hrest', heq => by
      obtain ⟨rfl, hrest⟩ := Clean.append_inj h h' hrest hrest' heq
      exact ⟨rfl, hrest⟩
  | .atom text, .node head parts, rest, rest', h, _, _, _, heq => by
      rw [chars_node_append] at heq
      exact absurd heq (Clean.ne_open h)
  | .node head parts, .atom text, rest, rest', _, h', _, _, heq => by
      rw [chars_node_append] at heq
      exact absurd heq.symm (Clean.ne_open h')
  | .node head parts, .node head' parts', rest, rest', h, h', _, _, heq => by
      rw [chars_node_append, chars_node_append] at heq
      obtain ⟨rfl, htail⟩ := h.1.append_inj h'.1 (ends_tail parts rest) (ends_tail parts' rest')
        (List.cons.inj heq).2
      obtain ⟨rfl, rfl⟩ := tail_append_inj parts h.2 h'.2 htail
      exact ⟨rfl, rfl⟩

/-- The parts of a node are told by their text. -/
theorem tail_append_inj : ∀ (parts : List Form) {parts' : List Form} {rest rest' : List Char},
    AreClean parts → AreClean parts' →
      tail parts ++ ')' :: rest = tail parts' ++ ')' :: rest' → parts = parts' ∧ rest = rest'
  | [], [], rest, rest', _, _, heq => by simpa [tail] using heq
  | [], _ :: _, rest, rest', _, _, heq => by simp [tail] at heq
  | _ :: _, [], rest, rest', _, _, heq => by simp [tail] at heq
  | part :: parts, part' :: parts', rest, rest', h, h', heq => by
      rw [tail_cons_append, tail_cons_append] at heq
      obtain ⟨rfl, htail⟩ := chars_append_inj part h.1 h'.1 (ends_tail parts rest)
        (ends_tail parts' rest') (List.cons.inj heq).2
      obtain ⟨rfl, rfl⟩ := tail_append_inj parts h.2 h'.2 htail
      exact ⟨rfl, rfl⟩

end

/-- Forms with one text are equal. -/
theorem eq_of_chars {form form' : Form} (h : form.IsClean) (h' : form'.IsClean)
    (heq : form.chars = form'.chars) : form = form' := by
  have hends : Ends [] := by simp [Ends]
  exact (chars_append_inj form h h' hends hends (by rw [heq])).1

end Form

/-! ### Programs as forms -/

/-- The form of an expression. -/
def Expr.form : Expr → Form
  | .literal value => .atom value.text.toList
  | .grouping inner => .node "group".toList [inner.form]
  | .unary op _ operand => .node op.text.toList [operand.form]
  | .binary op _ left right => .node op.text.toList [left.form, right.form]
  | .read name => .node name.lexeme.toList []
  | .assign name value => .node "=".toList [.atom name.lexeme.toList, value.form]

lemma Expr.toList_render (expr : Expr) : expr.render.toList = expr.form.chars := by
  induction expr with
  | literal value => rfl
  | grouping inner ih => simp [render, form, Form.chars, Form.tail, ih]
  | unary op operator operand ih => simp [render, form, Form.chars, Form.tail, ih]
  | binary op operator left right ihleft ihright =>
      simp [render, form, Form.chars, Form.tail, ihleft, ihright]
  | read name => simp [render, form, Form.chars, Form.tail]
  | assign name value ih => simp [render, form, Form.chars, Form.tail, ih]

namespace Statement

mutual

/-- The form of a statement. -/
def form : Statement → Form
  | .expression expr => .node ";".toList [expr.form]
  | .print expr => .node "print".toList [expr.form]
  | .declare name none => .node "var".toList [.atom name.lexeme.toList]
  | .declare name (some initial) => .node "var".toList [.atom name.lexeme.toList, initial.form]
  | .block body => .node "block".toList (formAll body)

/-- The forms of statements one behind the other. -/
def formAll : List Statement → List Form
  | [] => []
  | statement :: rest => statement.form :: formAll rest

end

mutual

theorem toList_render : ∀ statement : Statement, statement.render.toList = statement.form.chars
  | .expression expr => by simp [render, form, Form.chars, Form.tail, expr.toList_render]
  | .print expr => by simp [render, form, Form.chars, Form.tail, expr.toList_render]
  | .declare name none => by simp [render, form, Form.chars, Form.tail]
  | .declare name (some initial) => by
      simp [render, form, Form.chars, Form.tail, initial.toList_render]
  | .block body => by simp [render, form, Form.chars, toList_renderBody body]

theorem toList_renderBody :
    ∀ body : List Statement, (renderBody body).toList = Form.tail (formAll body)
  | [] => rfl
  | statement :: rest => by
      simp [renderBody, formAll, Form.tail, toList_render statement, toList_renderBody rest]

end

end Statement

/-! ### Programs that differ in their tokens only -/

/-- The expressions have the same nodes, operators, names and literals. -/
inductive Expr.Same : Expr → Expr → Prop where
  | literal (value : Value) : Same (.literal value) (.literal value)
  | grouping {inner inner' : Expr} (h : Same inner inner') :
      Same (.grouping inner) (.grouping inner')
  | unary (op : UnaryOp) (operator operator' : Token) {operand operand' : Expr}
      (h : Same operand operand') : Same (.unary op operator operand) (.unary op operator' operand')
  | binary (op : BinaryOp) (operator operator' : Token) {left left' right right' : Expr}
      (hleft : Same left left') (hright : Same right right') :
      Same (.binary op operator left right) (.binary op operator' left' right')
  | read {name name' : Token} (h : name.lexeme = name'.lexeme) : Same (.read name) (.read name')
  | assign {name name' : Token} {value value' : Expr} (hname : name.lexeme = name'.lexeme)
      (h : Same value value') : Same (.assign name value) (.assign name' value')

mutual

/-- The statements have the same nodes, operators, names and literals. -/
inductive Statement.Same : Statement → Statement → Prop where
  | expression {expr expr' : Expr} (h : expr.Same expr') :
      Same (.expression expr) (.expression expr')
  | print {expr expr' : Expr} (h : expr.Same expr') : Same (.print expr) (.print expr')
  | bare {name name' : Token} (h : name.lexeme = name'.lexeme) :
      Same (.declare name none) (.declare name' none)
  | initialized {name name' : Token} {initial initial' : Expr}
      (hname : name.lexeme = name'.lexeme) (h : initial.Same initial') :
      Same (.declare name (some initial)) (.declare name' (some initial'))
  | block {body body' : List Statement} (h : Statement.AllSame body body') :
      Same (.block body) (.block body')

/-- The statements are the same one by one. -/
inductive Statement.AllSame : List Statement → List Statement → Prop where
  | nil : AllSame [] []
  | cons {first first' : Statement} {rest rest' : List Statement} (h : first.Same first')
      (h' : Statement.AllSame rest rest') : AllSame (first :: rest) (first' :: rest')

end

/-! ### Programs that can be told apart -/

/-- The text of the literal tells it. The text of a string may be any text, and what is not a
number equals nothing, not even itself. -/
def Value.Legible : Value → Prop
  | .string _ => False
  | .number value => ¬ value.isNaN = true
  | _ => True

/-- Literals are legible, and names are words of the source. -/
def Expr.Legible : Expr → Prop
  | .literal value => value.Legible
  | .grouping inner => inner.Legible
  | .unary _ _ operand => operand.Legible
  | .binary _ _ left right => left.Legible ∧ right.Legible
  | .read name => Lexical.Word name.lexeme.toList
  | .assign name value => Lexical.Word name.lexeme.toList ∧ value.Legible

namespace Statement

mutual

/-- Literals are legible, and names are words of the source. -/
def Legible : Statement → Prop
  | .expression expr | .print expr => expr.Legible
  | .declare name none => Lexical.Word name.lexeme.toList
  | .declare name (some initial) => Lexical.Word name.lexeme.toList ∧ initial.Legible
  | .block body => AllLegible body

/-- So they are in all statements. -/
def AllLegible : List Statement → Prop
  | [] => True
  | statement :: rest => statement.Legible ∧ AllLegible rest

end

end Statement

lemma Lexical.Word.clean {text : List Char} (h : Word text) : Form.Clean text := by
  obtain ⟨c, more, rfl, hc, hmore⟩ := h
  have hpart : ∀ d ∈ c :: more, Segment.isWordPart d = true := by
    refine List.forall_mem_cons.2 ⟨isWordPart_iff.2 (.inl hc), ?_⟩
    exact fun d hd => isWordPart_iff.2 (hmore d hd)
  refine ⟨List.cons_ne_nil c more, ?_⟩
  intro d hd
  exact ⟨ne_of_isWordPart (hpart d hd) rfl, ne_of_isWordPart (hpart d hd) rfl,
    ne_of_isWordPart (hpart d hd) rfl⟩

namespace Value

variable {x : Float}

lemma pattern_le (h : ¬ x.isNaN = true) : Binary64.pattern x ≤ Binary64.infinity :=
  not_lt.1 (mt Binary64.isNaN_iff.2 h)

/-- A number is written in these characters. -/
lemma mem_text_number (h : ¬ x.isNaN = true) :
    ∀ c ∈ (number x).text.toList, c.isDigit = true ∨ c ∈ "-.Infinity".toList := by
  have hmagnitude : ∀ c ∈ numberFormat.magnitude (Binary64.pattern x),
      c.isDigit = true ∨ c ∈ "-.Infinity".toList := by
    intro c hc
    rw [NumberFormat.magnitude] at hc
    split at hc
    case isTrue => exact .inr (List.mem_of_mem_drop (show c ∈ "-.Infinity".toList.drop 2 from hc))
    case isFalse =>
        rw [Decimal.chars_eq, List.mem_append] at hc
        obtain hwhole | hpoint := hc
        · exact .inl (Decimal.isDigit_of_mem_wholeDigits _ c hwhole)
        · split at hpoint
          case isTrue => cases hpoint
          case isFalse =>
              obtain rfl | hfraction := List.mem_cons.1 hpoint
              · exact .inr (by decide)
              · exact .inl (Decimal.isDigit_of_mem_pointDigits _ c hfraction)
  rw [text_number, NumberFormat.toList_text _ (pattern_le h)]
  split
  case isTrue => exact List.forall_mem_cons.2 ⟨.inr (by decide), hmagnitude⟩
  case isFalse => exact hmagnitude

/-- A number starts with a digit, a minus or the word for infinity. -/
lemma exists_cons_text_number (h : ¬ x.isNaN = true) :
    ∃ c rest, (number x).text.toList = c :: rest ∧ (c.isDigit = true ∨ c = '-' ∨ c = 'I') := by
  rw [text_number, NumberFormat.toList_text _ (pattern_le h), NumberFormat.magnitude]
  split
  case isTrue => exact ⟨'-', _, rfl, .inr (.inl rfl)⟩
  case isFalse =>
      split
      case isTrue => exact ⟨'I', _, rfl, .inr (.inr rfl)⟩
      case isFalse =>
          obtain ⟨c, rest, hchars, hc⟩ :=
            (Decimal.shortest (Binary64.pattern x)).exists_cons_chars
          exact ⟨c, rest, hchars, .inl hc⟩

/-- The literals that are words. -/
def words : List Value := [.nil, .bool true, .bool false]

lemma Legible.mem_words_or {value : Value} (h : value.Legible) :
    value ∈ words ∨ ∃ x, value = .number x ∧ ¬ x.isNaN = true := by
  cases value with
  | nil => exact .inl (by decide)
  | bool value => exact .inl (by cases value <;> decide)
  | number x => exact .inr ⟨x, rfl, h⟩
  | string text => cases h

/-- No number is written as a word. -/
lemma text_number_ne (h : ¬ x.isNaN = true) {word : Value} (hword : word ∈ words) :
    (number x).text ≠ word.text := by
  intro heq
  obtain ⟨c, rest, htext, hc⟩ := exists_cons_text_number h
  have hhead : ∀ word ∈ words,
      ¬ word.text.toList.head?.any (fun c => c.isDigit || c == '-' || c == 'I') := by decide
  refine hhead word hword ?_
  rw [← heq, htext]
  simpa [or_assoc] using hc

/-- A legible literal is clean. -/
lemma Legible.clean {value : Value} (h : value.Legible) : Form.Clean value.text.toList := by
  obtain hword | ⟨x, rfl, hx⟩ := h.mem_words_or
  · have hwords : ∀ word ∈ words, Form.Clean word.text.toList := by decide
    exact hwords value hword
  · obtain ⟨c, rest, htext, -⟩ := exists_cons_text_number hx
    refine ⟨htext ▸ List.cons_ne_nil c rest, ?_⟩
    intro d hd
    have hd := mem_text_number hx d hd
    refine ⟨?_, ?_, ?_⟩ <;> rintro rfl <;> revert hd <;> decide

/-- Legible literals with one text are equal. -/
lemma Legible.eq_of_text {value value' : Value} (h : value.Legible) (h' : value'.Legible)
    (heq : value.text = value'.text) : value = value' := by
  obtain hword | ⟨x, rfl, hx⟩ := h.mem_words_or
  · obtain hword' | ⟨y, rfl, hy⟩ := h'.mem_words_or
    · have hwords : ∀ word ∈ words, ∀ word' ∈ words, word.text = word'.text → word = word' := by
        decide
      exact hwords value hword value' hword' heq
    · exact absurd heq.symm (text_number_ne hy hword)
  · obtain hword' | ⟨y, rfl, hy⟩ := h'.mem_words_or
    · exact absurd heq (text_number_ne hx hword')
    · have hinfinity : numberFormat.infinity.toList.all (fun c => !c.isDigit && c != '-') := by
        decide
      rw [text_number, text_number] at heq
      rw [NumberFormat.eq_of_text hinfinity (pattern_le hx) (pattern_le hy) heq]

end Value

/-! ### From forms back to programs -/

lemma UnaryOp.clean_text (op : UnaryOp) : Form.Clean op.text.toList := by
  cases op <;> decide

lemma BinaryOp.clean_text (op : BinaryOp) : Form.Clean op.text.toList := by
  cases op <;> decide

lemma UnaryOp.eq_of_text {op op' : UnaryOp} (h : op.text.toList = op'.text.toList) : op = op' := by
  cases op <;> cases op' <;> first | rfl | exact absurd h (by decide)

lemma BinaryOp.eq_of_text {op op' : BinaryOp} (h : op.text.toList = op'.text.toList) :
    op = op' := by
  cases op <;> cases op' <;> first | rfl | exact absurd h (by decide)

namespace Expr

lemma Legible.isClean_form {expr : Expr} (h : expr.Legible) : expr.form.IsClean := by
  induction expr with
  | literal value => exact Value.Legible.clean h
  | grouping inner ih => exact ⟨by decide, ih h, trivial⟩
  | unary op operator operand ih => exact ⟨op.clean_text, ih h, trivial⟩
  | binary op operator left right ihleft ihright =>
      exact ⟨op.clean_text, ihleft h.1, ihright h.2, trivial⟩
  | read name => exact ⟨h.clean, trivial⟩
  | assign name value ih => exact ⟨by decide, h.1.clean, ih h.2, trivial⟩

/-- The node and its parts are told by the head of the form and by the number of its parts. -/
theorem same_of_form {expr expr' : Expr} (h : expr.Legible) (h' : expr'.Legible)
    (heq : expr.form = expr'.form) : expr.Same expr' := by
  have hgroup : ∀ op : UnaryOp, op.text.toList ≠ "group".toList := by intro op; cases op <;> decide
  have hassign : ∀ op : BinaryOp, op.text.toList ≠ "=".toList := by intro op; cases op <;> decide
  induction expr generalizing expr' with
  | literal value =>
      cases expr' with
      | literal value' =>
          simp only [form, Form.atom.injEq, String.toList_inj] at heq
          rw [Value.Legible.eq_of_text h h' heq]
          exact .literal value'
      | _ => simp only [form, reduceCtorEq] at heq
  | grouping inner ih =>
      cases expr' with
      | grouping inner' =>
          simp only [form, Form.node.injEq, List.cons.injEq, and_true, true_and] at heq
          exact .grouping (ih h h' heq)
      | unary op operator operand =>
          simp only [form, Form.node.injEq] at heq
          exact absurd heq.1.symm (hgroup op)
      | _ => simp only [form, Form.node.injEq, List.cons.injEq, reduceCtorEq, and_false] at heq
  | unary op operator operand ih =>
      cases expr' with
      | unary op' operator' operand' =>
          simp only [form, Form.node.injEq, List.cons.injEq, and_true] at heq
          obtain rfl := UnaryOp.eq_of_text heq.1
          exact .unary op operator operator' (ih h h' heq.2)
      | grouping inner =>
          simp only [form, Form.node.injEq] at heq
          exact absurd heq.1 (hgroup op)
      | _ => simp only [form, Form.node.injEq, List.cons.injEq, reduceCtorEq, and_false] at heq
  | binary op operator left right ihleft ihright =>
      cases expr' with
      | binary op' operator' left' right' =>
          simp only [form, Form.node.injEq, List.cons.injEq, and_true] at heq
          obtain rfl := BinaryOp.eq_of_text heq.1
          exact .binary op operator operator' (ihleft h.1 h'.1 heq.2.1) (ihright h.2 h'.2 heq.2.2)
      | assign name value =>
          simp only [form, Form.node.injEq] at heq
          exact absurd heq.1 (hassign op)
      | _ => simp only [form, Form.node.injEq, List.cons.injEq, reduceCtorEq, and_false] at heq
  | read name =>
      cases expr' with
      | read name' =>
          simp only [form, Form.node.injEq, and_true, String.toList_inj] at heq
          exact .read heq
      | _ => simp only [form, Form.node.injEq, reduceCtorEq, and_false] at heq
  | assign name value ih =>
      cases expr' with
      | assign name' value' =>
          simp only [form, Form.node.injEq, List.cons.injEq, Form.atom.injEq, and_true, true_and,
            String.toList_inj] at heq
          exact .assign heq.1 (ih h.2 h'.2 heq.2)
      | binary op operator left right =>
          simp only [form, Form.node.injEq] at heq
          exact absurd heq.1.symm (hassign op)
      | _ => simp only [form, Form.node.injEq, List.cons.injEq, reduceCtorEq, and_false] at heq

end Expr

namespace Statement

mutual

theorem Legible.isClean_form : ∀ {statement : Statement}, statement.Legible →
    statement.form.IsClean
  | .expression _, h => ⟨by decide, Expr.Legible.isClean_form h, trivial⟩
  | .print _, h => ⟨by decide, Expr.Legible.isClean_form h, trivial⟩
  | .declare _ none, h => ⟨by decide, Lexical.Word.clean h, trivial⟩
  | .declare _ (some _), h =>
      ⟨by decide, h.1.clean, Expr.Legible.isClean_form h.2, trivial⟩
  | .block _, h => ⟨by decide, AllLegible.areClean_formAll h⟩

theorem AllLegible.areClean_formAll : ∀ {body : List Statement}, AllLegible body →
    Form.AreClean (formAll body)
  | [], _ => trivial
  | _ :: _, h => ⟨Legible.isClean_form h.1, AllLegible.areClean_formAll h.2⟩

end

mutual

/-- The head tells the statement, and a variable has an initial value if there is a second
part. -/
theorem same_of_form : ∀ {statement statement' : Statement}, statement.Legible →
    statement'.Legible → statement.form = statement'.form → statement.Same statement'
  | .expression expr, statement', h, h', heq => by
      rcases statement' with expr' | expr' | ⟨name', _ | initial'⟩ | body'
      case expression =>
          simp only [form, Form.node.injEq, List.cons.injEq, and_true, true_and] at heq
          exact .expression (Expr.same_of_form h h' heq)
      all_goals exact absurd (Form.node.inj heq).1 (by decide)
  | .print expr, statement', h, h', heq => by
      rcases statement' with expr' | expr' | ⟨name', _ | initial'⟩ | body'
      case print =>
          simp only [form, Form.node.injEq, List.cons.injEq, and_true, true_and] at heq
          exact .print (Expr.same_of_form h h' heq)
      all_goals exact absurd (Form.node.inj heq).1 (by decide)
  | .declare name none, statement', h, h', heq => by
      rcases statement' with expr' | expr' | ⟨name', _ | initial'⟩ | body'
      case declare.none =>
          simp only [form, Form.node.injEq, List.cons.injEq, Form.atom.injEq, and_true, true_and,
            String.toList_inj] at heq
          exact .bare heq
      case declare.some =>
          simp only [form, Form.node.injEq, List.cons.injEq, reduceCtorEq, and_false] at heq
      all_goals exact absurd (Form.node.inj heq).1 (by decide)
  | .declare name (some initial), statement', h, h', heq => by
      rcases statement' with expr' | expr' | ⟨name', _ | initial'⟩ | body'
      case declare.some =>
          simp only [form, Form.node.injEq, List.cons.injEq, Form.atom.injEq, and_true, true_and,
            String.toList_inj] at heq
          exact .initialized heq.1 (Expr.same_of_form h.2 h'.2 heq.2)
      case declare.none =>
          simp only [form, Form.node.injEq, List.cons.injEq, reduceCtorEq, and_false] at heq
      all_goals exact absurd (Form.node.inj heq).1 (by decide)
  | .block body, statement', h, h', heq => by
      rcases statement' with expr' | expr' | ⟨name', _ | initial'⟩ | body'
      case block =>
          simp only [form, Form.node.injEq, true_and] at heq
          exact .block (allSame_of_formAll h h' heq)
      all_goals exact absurd (Form.node.inj heq).1 (by decide)

theorem allSame_of_formAll : ∀ {body body' : List Statement}, AllLegible body →
    AllLegible body' → formAll body = formAll body' → AllSame body body'
  | [], [], _, _, _ => .nil
  | [], _ :: _, _, _, heq => by simp only [formAll, reduceCtorEq] at heq
  | _ :: _, [], _, _, heq => by simp only [formAll, reduceCtorEq] at heq
  | _ :: _, _ :: _, h, h', heq => by
      simp only [formAll, List.cons.injEq] at heq
      exact .cons (same_of_form h.1 h'.1 heq.1) (allSame_of_formAll h.2 h'.2 heq.2)

end

end Statement

/-! ### Texts -/

/-- The text of an expression does not show what tokens it keeps. -/
lemma Expr.Same.render_eq {expr expr' : Expr} (h : expr.Same expr') :
    expr.render = expr'.render := by
  induction h with
  | literal value => rfl
  | grouping _ ih => rw [render, render, ih]
  | unary op operator operator' _ ih => rw [render, render, ih]
  | binary op operator operator' _ _ ihleft ihright => rw [render, render, ihleft, ihright]
  | read h => rw [render, render, h]
  | assign hname _ ih => rw [render, render, hname, ih]

mutual

/-- The text of a statement does not show what tokens it keeps. -/
theorem Statement.Same.render_eq : ∀ {statement statement' : Statement},
    statement.Same statement' → statement.render = statement'.render
  | _, _, .expression h => by rw [render, render, h.render_eq]
  | _, _, .print h => by rw [render, render, h.render_eq]
  | _, _, .bare h => by rw [render, render, h]
  | _, _, .initialized hname h => by rw [render, render, hname, h.render_eq]
  | _, _, .block h => by rw [render, render, h.renderBody_eq]

theorem Statement.AllSame.renderBody_eq : ∀ {body body' : List Statement},
    Statement.AllSame body body' → Statement.renderBody body = Statement.renderBody body'
  | _, _, .nil => rfl
  | _, _, .cons h h' => by
      rw [Statement.renderBody, Statement.renderBody, h.render_eq, h'.renderBody_eq]

end

/-- **The parenthesised text of a program is faithful.** Where no literal is a string or not a
number, and every name is a word of the source, two expressions have the same text exactly if
they have the same nodes, the same operators, the same names and the same literals, and so have
two statements. Only what tokens the nodes keep is not told. -/
theorem render_faithful :
    (∀ expr expr' : Expr, expr.Legible → expr'.Legible →
      (expr.render = expr'.render ↔ expr.Same expr')) ∧
    ∀ statement statement' : Statement, statement.Legible → statement'.Legible →
      (statement.render = statement'.render ↔ statement.Same statement') := by
  constructor
  · intro expr expr' h h'
    refine ⟨?_, Expr.Same.render_eq⟩
    intro heq
    refine Expr.same_of_form h h' (Form.eq_of_chars h.isClean_form h'.isClean_form ?_)
    rw [← expr.toList_render, heq, expr'.toList_render]
  · intro statement statement' h h'
    refine ⟨?_, Statement.Same.render_eq⟩
    intro heq
    refine Statement.same_of_form h h' (Form.eq_of_chars h.isClean_form h'.isClean_form ?_)
    rw [← statement.toList_render, heq, statement'.toList_render]

/-- A variable named as a node is, with a minus from another place in the second program. -/
theorem render_faithful_at_group :
    let name : Token := ⟨.identifier, "group", none, .start⟩
    let minus : Token := ⟨.symbol .minus, "-", none, .start⟩
    let other : Token := ⟨.symbol .minus, "-", none, ⟨7, 3⟩⟩
    let one : Expr := .literal (.number (Float.ofBits 0x3FF0000000000000))
    let expr : Expr := .binary .sub minus (.grouping one) (.read name)
    let expr' : Expr := .binary .sub other (.grouping one) (.read name)
    let statement : Statement :=
      .block [.print (.unary .negate minus (.read name)), .declare name (some expr)]
    let statement' : Statement :=
      .block [.print (.unary .negate other (.read name)), .declare name (some expr')]
    expr.Legible ∧ expr'.Legible ∧ expr.Same expr' ∧
    statement.Legible ∧ statement'.Legible ∧
    statement.render = "(block (print (- (group))) (var group (- (group 1) (group))))" ∧
    statement'.render = "(block (print (- (group))) (var group (- (group 1) (group))))" ∧
    statement.Same statement' := by
  intro name minus other one expr expr' statement statement'
  have hword : Lexical.Word "group".toList :=
    ⟨'g', ['r', 'o', 'u', 'p'], by decide, Lexical.isWordStart_iff.1 (by decide), fun d hd =>
      Lexical.isWordPart_iff.1
        (List.all_eq_true.1 (by decide : ['r', 'o', 'u', 'p'].all Segment.isWordPart) d hd)⟩
  have hone : ¬ (Float.ofBits 0x3FF0000000000000).isNaN = true := by decide +kernel
  have hexpr : expr.Legible := ⟨hone, hword⟩
  have hexpr' : expr'.Legible := ⟨hone, hword⟩
  have hstatement : statement.Legible := ⟨hword, ⟨hword, hexpr⟩, trivial⟩
  have hstatement' : statement'.Legible := ⟨hword, ⟨hword, hexpr'⟩, trivial⟩
  have hrender : statement.render =
      "(block (print (- (group))) (var group (- (group 1) (group))))" := by decide +kernel
  have hrender' : statement'.render =
      "(block (print (- (group))) (var group (- (group 1) (group))))" := by decide +kernel
  obtain ⟨hexprs, hstatements⟩ := render_faithful
  refine ⟨hexpr, hexpr', (hexprs expr expr' hexpr hexpr').1 (by decide +kernel), hstatement,
    hstatement', hrender, hrender', ?_⟩
  exact (hstatements statement statement' hstatement hstatement').1 (hrender.trans hrender'.symm)

end Scriptlet
