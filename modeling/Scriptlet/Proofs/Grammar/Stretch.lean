import Scriptlet.Proofs.Grammar.Reader

/-!
Where a reader stands, and what it does there.

A reader that has moved up to some place has the tokens from there on before it: some that are
no end markers, and then an end marker. To follow an ending of the grammar means to have the
outcome and the notes of that ending, to stand before the tokens that it leaves, and to visit
no place behind the end marker on the way. Readers that follow two endings follow one behind
the other, so what a rule does is put together from looks and moves.

* `Reader.Ends.bind`, `Reader.Ends.of_succ`: rules that end, from those inside them.
* `Stretch`, `Stretch.Before`: tokens up to an end marker, and readers that stand before them.
* `Stretch.Follows`: what a reader does is what an ending says.
* `Stretch.Follows.bind`, `Stretch.Follows.andThen`: rules one behind the other.
* `Stretch.follows_peek`, `Stretch.follows_advance`, …: looking and moving.
-/

namespace Scriptlet

/-! ### Outcomes -/

namespace Ending

variable {α : Type}

/-- What a rule gives or complains about at its end. -/
def outcome : Ending α → Except Complaint α
  | read value _ _ => .ok value
  | stuck cause _ _ => .error cause

/-- What a rule has noted on its way. -/
def notes : Ending α → List Complaint
  | read _ notes _ => notes
  | stuck _ notes _ => notes

@[simp]
lemma outcome_after (earlier : List Complaint) (e : Ending α) :
    (e.after earlier).outcome = e.outcome := by
  cases e <;> rfl

@[simp]
lemma notes_after (earlier : List Complaint) (e : Ending α) :
    (e.after earlier).notes = earlier ++ e.notes := by
  cases e <;> rfl

end Ending

/-! ### Rules that end -/

namespace Reader

variable {α β : Type}

/-- One rule behind another. -/
lemma bind_run (rule : Rule α) (next : α → Rule β) (reader : Reader) :
    (rule >>= next) reader = (rule reader).bind fun
      | (.ok value, after) => next value after
      | (.error cause, after) => some (.error cause, after) := by
  change Option.bind _ _ = _
  congr
  funext ⟨outcome, after⟩
  cases outcome <;> rfl

/-- A rule with a handler for what it gets stuck at. The handler goes on where the rule has
left off. -/
lemma tryCatch_run (rule : Rule α) (handle : Complaint → Rule α) (reader : Reader) :
    (tryCatch rule handle) reader = (rule reader).bind fun
      | (.ok value, after) => some (.ok value, after)
      | (.error cause, after) => handle cause after := by
  change Option.bind _ _ = _
  congr
  funext ⟨outcome, after⟩
  cases outcome <;> rfl

variable {rule : Nat → Rule α} {next : α → Nat → Rule β} {reader between after : Reader}

/-- What does not depend on the limit. -/
lemma ends_of_run {rule : Rule α} {outcome : Except Complaint α}
    (h : rule reader = some (outcome, after)) : Ends (fun _ => rule) reader outcome after :=
  ⟨0, fun _ _ => h⟩

/-- One more call around a rule. -/
lemma Ends.of_succ {outcome : Except Complaint α}
    (h : Ends (fun limit => rule (limit + 1)) reader outcome after) :
    Ends rule reader outcome after := by
  obtain ⟨enough, h⟩ := h
  refine ⟨enough + 1, ?_⟩
  intro limit hlimit
  obtain ⟨below, rfl⟩ := Nat.exists_eq_add_of_le' hlimit
  exact h (below + enough) (Nat.le_add_left enough below)

lemma Ends.bind {value : α} {outcome : Except Complaint β}
    (h : Ends rule reader (.ok value) between) (h' : Ends (next value) between outcome after) :
    Ends (fun limit => rule limit >>= fun value => next value limit) reader outcome after := by
  obtain ⟨enough, h⟩ := h
  obtain ⟨enough', h'⟩ := h'
  refine ⟨max enough enough', ?_⟩
  intro limit hlimit
  obtain ⟨hfirst, hsecond⟩ := Nat.max_le.1 hlimit
  refine (bind_run _ _ reader).trans ?_
  rw [h limit hfirst]
  exact h' limit hsecond

lemma Ends.bind_error {cause : Complaint} (h : Ends rule reader (.error cause) after) :
    Ends (fun limit => rule limit >>= fun value => next value limit) reader (.error cause)
      after := by
  obtain ⟨enough, h⟩ := h
  refine ⟨enough, ?_⟩
  intro limit hlimit
  refine (bind_run _ _ reader).trans ?_
  rw [h limit hlimit]
  rfl

lemma Ends.tryCatch_ok {value : α} {handle : Complaint → Nat → Rule α}
    (h : Ends rule reader (.ok value) after) :
    Ends (fun limit => tryCatch (rule limit) fun cause => handle cause limit) reader (.ok value)
      after := by
  obtain ⟨enough, h⟩ := h
  refine ⟨enough, ?_⟩
  intro limit hlimit
  refine (tryCatch_run _ _ reader).trans ?_
  rw [h limit hlimit]
  rfl

lemma Ends.tryCatch_error {cause : Complaint} {handle : Complaint → Nat → Rule α}
    {outcome : Except Complaint α} (h : Ends rule reader (.error cause) between)
    (h' : Ends (handle cause) between outcome after) :
    Ends (fun limit => tryCatch (rule limit) fun cause => handle cause limit) reader outcome
      after := by
  obtain ⟨enough, h⟩ := h
  obtain ⟨enough', h'⟩ := h'
  refine ⟨max enough enough', ?_⟩
  intro limit hlimit
  obtain ⟨hfirst, hsecond⟩ := Nat.max_le.1 hlimit
  refine (tryCatch_run _ _ reader).trans ?_
  rw [h limit hfirst]
  exact h' limit hsecond

end Reader

/-! ### Where a reader stands -/

/-- Tokens with an end marker among them, at which reading is to end, and what is behind it. -/
structure Stretch where
  tokens : List Token
  stop : Token
  behind : List Token
  isEnd : stop.isEnd

namespace Stretch

variable {α β : Type} (s : Stretch)

/-- The reader stands before `rest`, and then the end marker comes. -/
structure Before (rest : List Token) (reader : Reader) : Prop where
  not_isEnd : ∀ token ∈ rest, ¬ token.isEnd
  drop_place : s.tokens.drop reader.place = rest ++ s.stop :: s.behind

/-- All places visited in between are those of the end marker or of tokens before it. -/
def KeepsTo (before after : Reader) : Prop :=
  ∀ index ∈ after.visited, index ∈ before.visited ∨ index + s.behind.length < s.tokens.length

/-- Before the given tokens, a reader that does what the rule says ends as given, and stays
before the end marker. -/
def Follows (rule : Nat → Reader.Rule α) (rest : List Token) (e : Ending α) : Prop :=
  ∀ reader, s.Before rest reader → ∃ after, Reader.Ends rule reader e.outcome after ∧
    s.Before e.rest after ∧ after.notes = reader.notes ++ e.notes ∧ s.KeepsTo reader after

/-- The token before the place in which `rest` begins. -/
def passed (rest : List Token) : Token :=
  s.tokens[s.tokens.length - (rest.length + 1 + s.behind.length) - 1]?.getD s.stop

variable {s} {token : Token} {rest rest' : List Token} {reader : Reader}

lemma Before.length_eq (h : s.Before rest reader) :
    s.tokens.length = reader.place + (rest.length + 1 + s.behind.length) := by
  have hlength := congrArg List.length h.drop_place
  rw [List.length_drop, List.length_append, List.length_cons] at hlength
  omega

lemma Before.getElem?_place (h : s.Before rest reader) :
    s.tokens[reader.place]? = some (rest.headD s.stop) := by
  rw [← List.head?_drop, h.drop_place]
  cases rest <;> rfl

lemma Before.getElem?_previous (h : s.Before rest reader) :
    s.tokens[reader.place - 1]? = some (s.passed rest) := by
  have hlength := h.length_eq
  have hplace : s.tokens.length - (rest.length + 1 + s.behind.length) = reader.place := by omega
  have hlt : reader.place - 1 < s.tokens.length := by omega
  rw [passed, hplace, List.getElem?_eq_getElem hlt]
  rfl

/-- The token that was next is the one before, when the reader has moved over it. -/
lemma Before.passed_eq (h : s.Before (token :: rest) reader) : s.passed rest = token := by
  have hlength := h.length_eq
  rw [List.length_cons] at hlength
  have hplace : s.tokens.length - (rest.length + 1 + s.behind.length) - 1 = reader.place := by omega
  rw [passed, hplace, h.getElem?_place]
  rfl

lemma Before.tail (h : s.Before (token :: rest) reader) {after : Reader}
    (hplace : after.place = reader.place + 1) : s.Before rest after where
  not_isEnd := fun other hother => h.not_isEnd other (List.mem_cons_of_mem token hother)
  drop_place := by
    rw [hplace, ← List.tail_drop, h.drop_place]
    rfl

lemma KeepsTo.trans {first second third : Reader} (h : s.KeepsTo first second)
    (h' : s.KeepsTo second third) : s.KeepsTo first third := by
  intro index hindex
  obtain hsecond | hlt := h' index hindex
  · exact h index hsecond
  · exact .inr hlt

lemma keepsTo_visit {after : Reader} {index : Nat}
    (h : index + s.behind.length < s.tokens.length)
    (hvisited : after.visited = reader.visited ++ [index]) : s.KeepsTo reader after := by
  intro place hplace
  rw [hvisited, List.mem_append, List.mem_singleton] at hplace
  obtain hplace | rfl := hplace
  · exact .inl hplace
  · exact .inr h

/-! ### Rules one behind the other -/

lemma follows_pure (value : α) (rest : List Token) :
    s.Follows (fun _ => pure value) rest (.read value [] rest) := by
  intro reader hreader
  exact ⟨reader, Reader.ends_of_run rfl, hreader, (List.append_nil _).symm, fun _ => .inl⟩

lemma follows_throw (cause : Complaint) (rest : List Token) :
    s.Follows (fun _ => (throw cause : Reader.Rule α)) rest (.stuck cause [] rest) := by
  intro reader hreader
  exact ⟨reader, Reader.ends_of_run rfl, hreader, (List.append_nil _).symm, fun _ => .inl⟩

/-- What holds wherever the reader may stand holds. -/
lemma Follows.of_before {rule : Nat → Reader.Rule α} {e : Ending α}
    (h : ∀ reader, s.Before rest reader → s.Follows rule rest e) : s.Follows rule rest e :=
  fun reader hreader => h reader hreader reader hreader

/-- A rule does what is inside the call of it. -/
lemma Follows.of_succ {rule : Nat → Reader.Rule α} {e : Ending α}
    (h : s.Follows (fun limit => rule (limit + 1)) rest e) : s.Follows rule rest e := by
  intro reader hreader
  obtain ⟨after, hends, hafter⟩ := h reader hreader
  exact ⟨after, hends.of_succ, hafter⟩

/-- **A reader follows rules one behind the other** if it follows both. -/
lemma Follows.bind {rule : Nat → Reader.Rule α} {e : Ending α} {next : α → Nat → Reader.Rule β}
    {next' : α → List Token → Ending β} (h : s.Follows rule rest e)
    (hnext : ∀ value notes rest', e = .read value notes rest' →
      s.Follows (next value) rest' (next' value rest')) :
    s.Follows (fun limit => rule limit >>= fun value => next value limit) rest
      (e.bind next') := by
  intro reader hreader
  obtain ⟨between, hrule, hbetween, hnotes, hkeeps⟩ := h reader hreader
  cases e with
  | stuck cause notes rest' => exact ⟨between, hrule.bind_error, hbetween, hnotes, hkeeps⟩
  | read value notes rest' =>
      obtain ⟨after, hends, hafter, hlater, hkeeps'⟩ :=
        hnext value notes rest' rfl between hbetween
      refine ⟨after, ?_, ?_, ?_, hkeeps.trans hkeeps'⟩
      · rw [Ending.bind_read, Ending.outcome_after]
        exact hrule.bind hends
      · rwa [Ending.bind_read, Ending.rest_after]
      · rw [Ending.bind_read, Ending.notes_after, hlater, hnotes, List.append_assoc]
        rfl

/-- Behind a phrase that is known. -/
lemma Follows.behind {rule : Nat → Reader.Rule α} {value : α} {notes : List Complaint}
    {next : α → Nat → Reader.Rule β} {e : Ending β}
    (h : s.Follows rule rest (.read value notes rest')) (hnext : s.Follows (next value) rest' e) :
    s.Follows (fun limit => rule limit >>= fun value => next value limit) rest
      (e.after notes) := by
  have hboth : s.Follows (fun limit => rule limit >>= fun value => next value limit) rest
      ((Ending.read value notes rest').bind fun _ _ => e) := by
    refine h.bind ?_
    rintro _ _ _ ⟨⟩
    exact hnext
  rwa [Ending.bind_read] at hboth

/-- Behind a phrase about which nothing is noted. -/
lemma Follows.andThen {rule : Nat → Reader.Rule α} {value : α} {next : α → Nat → Reader.Rule β}
    {e : Ending β} (h : s.Follows rule rest (.read value [] rest'))
    (hnext : s.Follows (next value) rest' e) :
    s.Follows (fun limit => rule limit >>= fun value => next value limit) rest e := by
  have hboth := h.behind hnext
  rwa [Ending.after_nil] at hboth

/-- Behind a rule that has got stuck, nothing is done. -/
lemma Follows.stuck {rule : Nat → Reader.Rule α} {cause : Complaint} {notes : List Complaint}
    (h : s.Follows rule rest (.stuck cause notes rest')) (next : α → Nat → Reader.Rule β) :
    s.Follows (fun limit => rule limit >>= fun value => next value limit) rest
      (.stuck cause notes rest') := by
  intro reader hreader
  obtain ⟨after, hends, hafter⟩ := h reader hreader
  exact ⟨after, hends.bind_error, hafter⟩

/-! ### Looking and moving -/

lemma look_run {index : Nat} (h : s.tokens[index]? = some token) (reader : Reader) :
    Reader.look s.tokens index reader =
      some (.ok token, { reader with visited := reader.visited ++ [index] }) := by
  rw [Reader.look, Reader.bind_run]
  show Option.bind (some (Except.ok (), { reader with visited := reader.visited ++ [index] })) _ = _
  rw [Option.bind_some, h]
  rfl

lemma follows_peek (rest : List Token) :
    s.Follows (fun _ => Reader.peek s.tokens) rest (.read (rest.headD s.stop) [] rest) := by
  intro reader hreader
  have hlength := hreader.length_eq
  have hplace : min reader.place (s.tokens.length - 1) = reader.place := by omega
  refine ⟨{ reader with visited := reader.visited ++ [reader.place] }, ?_,
    ⟨hreader.not_isEnd, hreader.drop_place⟩, (List.append_nil _).symm,
    keepsTo_visit (by omega) rfl⟩
  apply Reader.ends_of_run
  show Reader.look s.tokens (min reader.place (s.tokens.length - 1)) reader = _
  rw [hplace, look_run hreader.getElem?_place]
  rfl

lemma follows_previous (rest : List Token) :
    s.Follows (fun _ => Reader.previous s.tokens) rest (.read (s.passed rest) [] rest) := by
  intro reader hreader
  have hlength := hreader.length_eq
  refine ⟨{ reader with visited := reader.visited ++ [reader.place - 1] }, ?_,
    ⟨hreader.not_isEnd, hreader.drop_place⟩, (List.append_nil _).symm,
    keepsTo_visit (by omega) rfl⟩
  apply Reader.ends_of_run
  show Reader.look s.tokens (reader.place - 1) reader = _
  rw [look_run hreader.getElem?_previous]
  rfl

lemma follows_move (token : Token) (rest : List Token) :
    s.Follows (fun _ => Reader.move) (token :: rest) (.read () [] rest) := by
  intro reader hreader
  have hlength := hreader.length_eq
  rw [List.length_cons] at hlength
  have hvisit : reader.place + 1 + s.behind.length < s.tokens.length := by omega
  exact ⟨_, Reader.ends_of_run rfl, hreader.tail rfl, (List.append_nil _).symm,
    keepsTo_visit hvisit rfl⟩

lemma follows_report (complaint : Complaint) (rest : List Token) :
    s.Follows (fun _ => Reader.report complaint) rest (.read () [complaint] rest) := by
  intro reader hreader
  exact ⟨_, Reader.ends_of_run rfl, ⟨hreader.not_isEnd, hreader.drop_place⟩, rfl, fun _ => .inl⟩

/-- A complaint is noted before something else is done. -/
lemma follows_noted (complaint : Complaint) {rule : Nat → Reader.Rule α} {value : α}
    (h : s.Follows rule rest (.read value [] rest')) :
    s.Follows (fun limit => do Reader.report complaint; rule limit) rest
      (.read value [complaint] rest') := by
  have hnoted : s.Follows (fun limit => do Reader.report complaint; rule limit) rest
      ((Ending.read value [] rest').after [complaint]) := (follows_report complaint rest).behind h
  exact hnoted

lemma follows_isAtEnd (rest : List Token) :
    s.Follows (fun _ => Reader.isAtEnd s.tokens) rest (.read rest.isEmpty [] rest) := by
  refine .of_before fun reader hreader => ?_
  have hend : (rest.headD s.stop).isEnd = rest.isEmpty := by
    cases rest with
    | nil => exact s.isEnd
    | cons token rest => exact Bool.eq_false_iff.2 (hreader.not_isEnd token List.mem_cons_self)
  rw [← hend]
  exact (follows_peek rest).andThen (follows_pure _ rest)

lemma follows_check_nil (kind : Token.Kind) :
    s.Follows (fun _ => Reader.check s.tokens kind) [] (.read false [] []) :=
  (follows_isAtEnd []).andThen (follows_pure false [])

lemma follows_check (kind : Token.Kind) (token : Token) (rest : List Token) :
    s.Follows (fun _ => Reader.check s.tokens kind) (token :: rest)
      (.read (decide (token.kind = kind)) [] (token :: rest)) :=
  (follows_isAtEnd _).andThen ((follows_peek _).andThen (follows_pure _ _))

/-- The reader moves over the next token and has it behind. -/
lemma follows_advance (token : Token) (rest : List Token) :
    s.Follows (fun _ => Reader.advance s.tokens) (token :: rest) (.read token [] rest) := by
  refine .of_before fun reader hreader => ?_
  have hprevious := s.follows_previous rest
  rw [hreader.passed_eq] at hprevious
  exact (follows_isAtEnd _).andThen ((follows_move token rest).andThen hprevious)

/-- The reader stays before the end marker. -/
lemma follows_advance_nil :
    s.Follows (fun _ => Reader.advance s.tokens) [] (.read (s.passed []) [] []) :=
  (follows_isAtEnd []).andThen (follows_previous [])

lemma follows_accept {kind : Token.Kind} (h : token.kind = kind) (rest : List Token) :
    s.Follows (fun _ => Reader.accept s.tokens kind) (token :: rest)
      (.read (some token) [] rest) := by
  refine (follows_check kind token rest).andThen ?_
  rw [decide_eq_true h]
  exact (follows_advance token rest).andThen (follows_pure _ rest)

/-- The next token is of another kind, or there is none. -/
def Lacks (kind : Token.Kind) (rest : List Token) : Prop := ∀ token ∈ rest.head?, token.kind ≠ kind

lemma lacks_nil (kind : Token.Kind) : Lacks kind [] := fun _ h => nomatch h

lemma lacks_of_not_isSymbol {symbol : Symbol} (h : ¬ token.isSymbol symbol) (rest : List Token) :
    Lacks (.symbol symbol) (token :: rest) := by
  simpa [Lacks, Token.isSymbol] using h

lemma follows_check_of_lacks {kind : Token.Kind} (h : Lacks kind rest) :
    s.Follows (fun _ => Reader.check s.tokens kind) rest (.read false [] rest) := by
  cases rest with
  | nil => exact follows_check_nil kind
  | cons token rest =>
      have hcheck := s.follows_check kind token rest
      rwa [decide_eq_false (h token rfl)] at hcheck

lemma follows_accept_of_lacks {kind : Token.Kind} (h : Lacks kind rest) :
    s.Follows (fun _ => Reader.accept s.tokens kind) rest (.read none [] rest) :=
  (follows_check_of_lacks h).andThen (follows_pure none rest)

lemma follows_consume {kind : Token.Kind} (h : token.kind = kind) (missing : Expectation)
    (rest : List Token) :
    s.Follows (fun _ => Reader.consume s.tokens kind missing) (token :: rest)
      (.read token [] rest) := by
  refine (follows_check kind token rest).andThen ?_
  rw [decide_eq_true h]
  exact follows_advance token rest

lemma follows_consume_of_lacks {kind : Token.Kind} (h : Lacks kind rest) (missing : Expectation) :
    s.Follows (fun _ => Reader.consume s.tokens kind missing) rest
      (.stuck ⟨rest.headD s.stop, missing⟩ [] rest) :=
  (follows_check_of_lacks h).andThen ((follows_peek rest).andThen (follows_throw _ rest))

/-- A phrase that a symbol has to follow. -/
lemma follows_close (symbol : Symbol) (missing : Expectation) (value : α) (rest : List Token) :
    s.Follows
      (fun _ => do let _ ← Reader.consume s.tokens (.symbol symbol) missing; return value) rest
      (Ending.close s.stop symbol missing value rest) := by
  cases rest with
  | nil =>
      exact (follows_consume_of_lacks (lacks_nil _) missing).stuck _
  | cons token rest =>
      rw [Ending.close]
      split
      case isTrue htoken =>
          have hkind : token.kind = .symbol symbol := by simpa [Token.isSymbol] using htoken
          exact (follows_consume hkind missing rest).andThen (follows_pure value rest)
      case isFalse htoken =>
          exact (follows_consume_of_lacks (lacks_of_not_isSymbol htoken rest) missing).stuck _

end Stretch

end Scriptlet
