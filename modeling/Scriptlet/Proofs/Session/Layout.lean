import Scriptlet.Proofs.Grammar.Relocation
import Scriptlet.Proofs.Session.Simulation
import Scriptlet.Proofs.Session.Verdict
import Scriptlet.Proofs.Token.Positions

/-!
Layout never changes the meaning of a source.

Sources with the same tokens in two layouts differ in the positions of their tokens. All
that is made of either of them, from the program to the last diagnostic, is compared with
what is made of the same tokens without their places: every one of them at the start.

* `Statement.placeless`, `Diagnostic.placeless`: programs and diagnostics whose positions
  are forgotten.
* `read_of_content_eq`: the programs and the reports that the same tokens give.
* `Session.interpret_of_placeless_eq`: the runs of programs that differ in places.
* `layout_keeps_meaning`: two sources with the same tokens.
-/

namespace Scriptlet

/-! ### Forgotten places -/

/-- Every position becomes the start. -/
def Position.forget (_ : Position) : Position := .start

/-- The statement without the places of its tokens. -/
def Statement.placeless : Statement → Statement := Statement.moved Position.forget

/-- The diagnostic without its place. Whether it has one stays. -/
def Diagnostic.placeless : Diagnostic → Diagnostic
  | malformed _ column location message =>
    malformed Position.start.line (column.map fun _ => Position.start.column) location message
  | fault position message => fault (position.map Position.forget) message

/-- A token without its place is its content. -/
lemma Token.moved_forget_eq {token token' : Token} (h : token.content = token'.content) :
    token.moved Position.forget = token'.moved Position.forget := by
  simp only [content, Prod.mk.injEq] at h
  obtain ⟨hkind, hlexeme, hliteral⟩ := h
  rw [moved, moved, hkind, hlexeme, hliteral]
  rfl

lemma Complaint.diagnostic_forget (c : Complaint) :
    (c.moved Position.forget).diagnostic = c.diagnostic.placeless := by
  rw [diagnostic, diagnostic, moved, Diagnostic.atToken, Diagnostic.atToken, Token.isEnd_moved]
  split <;> rfl

lemma Fault.diagnostic_forget (fault : Fault) :
    (fault.map (Token.moved Position.forget)).diagnostic = fault.diagnostic.placeless := by
  cases fault <;> rfl

/-! ### Reading -/

/-- The tokens of a source without their places give its program and its complaints, without
their places. -/
lemma ofTokens_forget (source : String) :
    let parsed := Parse.ofTokens ((scan source).tokens.map (Token.moved Position.forget))
    parsed.program = (read source).program.map Statement.placeless ∧
      parsed.report = (Parse.ofTokens (scan source).tokens).report.map Diagnostic.placeless := by
  refine ⟨?_, Parse.report_moved Complaint.diagnostic_forget (exists_isEnd_scan source)⟩
  rw [Parse.ofTokens_moved Position.forget (exists_isEnd_scan source)]
  rfl

/-- **Sources with the same tokens are read as the same program**, and the same is reported
about them, up to places. -/
theorem read_of_content_eq {s t : String} (hs : (scan s).report = []) (ht : (scan t).report = [])
    (h : (scan s).tokens.map Token.content = (scan t).tokens.map Token.content) :
    (read s).program.map Statement.placeless = (read t).program.map Statement.placeless ∧
      (read s).report.map Diagnostic.placeless = (read t).report.map Diagnostic.placeless := by
  have htokens : (scan s).tokens.map (Token.moved Position.forget) =
      (scan t).tokens.map (Token.moved Position.forget) := by
    rw [← List.forall₂_eq_eq_eq, List.forall₂_map_left_iff, List.forall₂_map_right_iff] at h ⊢
    exact h.imp fun _ _ => Token.moved_forget_eq
  obtain ⟨hprogram, hreport⟩ := ofTokens_forget s
  obtain ⟨hprogram', hreport'⟩ := ofTokens_forget t
  rw [htokens] at hprogram hreport
  refine ⟨hprogram.symm.trans hprogram', ?_⟩
  rw [read, read, hs, ht, List.nil_append, List.nil_append]
  exact hreport.symm.trans hreport'

/-! ### Running -/

/-- The variables of each scope, from the current one outward. -/
def Environment.bindings (env : Environment) : List (String → Option Value) :=
  env.scopes.map Scope.get?

lemma Environment.seen_id (env : Environment) : env.seen id = env.bindings := by
  rw [seen, bindings]
  congr 1
  funext s name
  exact congrFun Option.map_id _

/-- Runs from the same bindings go side by side. -/
theorem bindings_simulation :
    Simulation id id Eq fun env env' => env.bindings = env'.bindings := by
  have hview : Simulation id id (fun value value' => id value = id value')
      fun env env' => env.seen id = env'.seen id := by
    refine view_simulation (fun _ => rfl) ?_ ?_
    · rintro op operator value _ rfl
      rfl
    · rintro op operator left _ right _ rfl rfl
      rfl
  simp only [Environment.seen_id] at hview
  exact hview

section

variable {W W' : Type} [Sink W] [Sink W'] {received : W → List UInt8}
  {received' : W' → List UInt8} (session : Session W) (session' : Session W')

/-- **Programs that differ in places only** print the same and leave the same bindings, and
end with the same fault, up to its place, or without one. -/
theorem Session.interpret_of_placeless_eq {program program' : List Statement}
    (h : program.map Statement.placeless = program'.map Statement.placeless)
    (henv : session.environment.bindings = session'.environment.bindings)
    (hsink : Sink.Accepts received none session.sink)
    (hsink' : Sink.Accepts received' none session'.sink) :
    let run := session.interpret program
    let run' := session'.interpret program'
    (∃ output, received run.2.sink = received session.sink ++ output ∧
      received' run'.2.sink = received' session'.sink ++ output) ∧
    run.2.environment.bindings = run'.2.environment.bindings ∧
    run.1.map Diagnostic.placeless = run'.1.map Diagnostic.placeless := by
  intro run run'
  obtain ⟨hreport, hleft, hbytes, -⟩ := session.interpret_of_endless hsink program
  obtain ⟨hreport', hleft', hbytes', -⟩ := session'.interpret_of_endless hsink' program'
  -- both runs go beside the run of the program without places
  obtain ⟨houtcome, hafter, houtput⟩ := bindings_simulation.record_moved
    Fault.diagnostic_forget henv program
  obtain ⟨houtcome', hafter', houtput'⟩ := bindings_simulation.record_moved
    Fault.diagnostic_forget (Eq.refl session'.environment.bindings) program'
  change program.map (Statement.moved Position.forget) = _ at h
  rw [h] at houtcome hafter houtput
  refine ⟨⟨output session'.environment program', ?_, hbytes'⟩, ?_, ?_⟩
  · rw [hbytes, ← houtput, ← houtput']
    rfl
  · rw [hleft, hleft']
    exact hafter.trans hafter'.symm
  · rw [hreport, hreport']
    exact houtcome.symm.trans houtcome'

/-- **Layout never changes meaning.** Take two sources without lexical mistakes whose tokens
agree one by one in kind, text and literal, wherever they stand, and run them from the same
bindings with receivers that never fail. They are read as the same program up to the places
of its tokens. Their runs write the same bytes and leave the same bindings, and report one
by one the same, up to lines and columns. -/
theorem layout_keeps_meaning {s t : String} (hs : (scan s).report = [])
    (ht : (scan t).report = [])
    (htokens : (scan s).tokens.map Token.content = (scan t).tokens.map Token.content)
    (henv : session.environment.bindings = session'.environment.bindings)
    (hsink : Sink.Accepts received none session.sink)
    (hsink' : Sink.Accepts received' none session'.sink) :
    let run := session.run s
    let run' := session'.run t
    (read s).program.map Statement.placeless = (read t).program.map Statement.placeless ∧
    (∃ output, received run.2.sink = received session.sink ++ output ∧
      received' run'.2.sink = received' session'.sink ++ output) ∧
    run.2.environment.bindings = run'.2.environment.bindings ∧
    run.1.map Diagnostic.placeless = run'.1.map Diagnostic.placeless := by
  intro run run'
  obtain ⟨hprogram, hreport⟩ := read_of_content_eq hs ht htokens
  refine ⟨hprogram, ?_⟩
  have hmistakes : (read s).report = [] ↔ (read t).report = [] := by
    rw [← List.map_eq_nil_iff (f := Diagnostic.placeless), hreport, List.map_eq_nil_iff]
  by_cases hread : (read s).report = []
  · have hrun : run = session.interpret (read s).program := session.run_of_read hread
    have hrun' : run' = session'.interpret (read t).program :=
      session'.run_of_read (hmistakes.1 hread)
    rw [hrun, hrun']
    exact session.interpret_of_placeless_eq session' hprogram henv hsink hsink'
  · have hrun : run = ((read s).report, session) := session.run_of_mistakes hread
    have hrun' : run' = ((read t).report, session') :=
      session'.run_of_mistakes fun h => hread (hmistakes.2 h)
    rw [hrun, hrun']
    exact ⟨⟨[], (List.append_nil _).symm, (List.append_nil _).symm⟩, henv, hreport⟩

end

/-- A comment and line feeds between the tokens move the minus that fails, and a receiver
that has received something before receives the same more. -/
theorem layout_keeps_meaning_over_lines :
    let s := "print \"a\"; print -nil;"
    let t := "print // a text\n\"a\";\nprint\n-nil;"
    let session : Session := {}
    let session' : Session := ⟨{}, { written := utf8 "b" }⟩
    (scan s).report = [] ∧ (scan t).report = [] ∧
    (scan s).tokens.map Token.content = (scan t).tokens.map Token.content ∧
    session.environment.bindings = session'.environment.bindings ∧
    Sink.Accepts Buffer.written none session.sink ∧
    Sink.Accepts Buffer.written none session'.sink ∧
    (session.run s).1 = [.fault (some ⟨1, 18⟩) "Operand must be a number."] ∧
    (session'.run t).1.map Diagnostic.placeless =
      [.fault (some .start) "Operand must be a number."] ∧
    (session'.run t).2.sink.written = utf8 "ba\n" := by
  intro s t session session'
  have hs : (scan s).report = [] := by decide +kernel
  have ht : (scan t).report = [] := by decide +kernel
  have htokens : (scan s).tokens.map Token.content = (scan t).tokens.map Token.content := by
    decide +kernel
  have hsink : Sink.Accepts Buffer.written none session.sink := Buffer.accepts {} rfl
  have hsink' : Sink.Accepts Buffer.written none session'.sink :=
    Buffer.accepts { written := utf8 "b" } rfl
  have hfault : (session.run s).1 = [.fault (some ⟨1, 18⟩) "Operand must be a number."] := by
    decide +kernel
  have hwritten : (session.run s).2.sink.written = utf8 "a\n" := by decide +kernel
  obtain ⟨-, ⟨output, houtput, houtput'⟩, -, hreport⟩ :=
    layout_keeps_meaning session session' hs ht htokens rfl hsink hsink'
  obtain rfl : utf8 "a\n" = output := hwritten.symm.trans houtput
  refine ⟨hs, ht, htokens, rfl, hsink, hsink', hfault, ?_, houtput'⟩
  rw [← hreport, hfault]
  rfl

end Scriptlet
