import RowMapper.Proofs.Engine.Call
import RowMapper.Proofs.Outcome

/-!
# What the engine reports

Whether statements are reported is set once, and no statement changes it.  A statement that has to
be reported and cannot be put into words is not sent (`query_unsent`).
-/
namespace RowMapper.Engine

/-- The two engines report the same. -/
structure SameReports (e e' : Engine) : Prop where
  logStatements_eq : e'.logStatements = e.logStatements
  debugging_eq : e'.debugging = e.debugging

instance : IsPreorder Engine SameReports where
  refl _ := ⟨rfl, rfl⟩
  trans _ _ _ h h' := ⟨h'.logStatements_eq.trans h.logStatements_eq,
    h'.debugging_eq.trans h.debugging_eq⟩

theorem report_reports (level : Level) (source message : String) :
    (report level source message).Obeys SameReports := fun _ => ⟨rfl, rfl⟩

theorem query_reports (o : Observer) (text : String) (params : List Value) :
    (query o text params).Obeys SameReports := by
  have hreport (message : Printed) : (reportStatement message).Obeys SameReports :=
    .bind .get fun _ => .ite (.bind (.ofExcept _) fun _ => report_reports _ _ _) (.pure _)
  have hsend (seen : List View) : (send text params seen).Obeys SameReports := fun e => by
    rw [send_runOn]
    exact ⟨rfl, rfl⟩
  refine .bind (hreport _) fun _ => .bind (hsend _) fun reply => ?_
  cases reply with
  | ok answer => exact .pure answer
  | error refusal =>
    cases refusal with
    | overflow message => exact .throw _
    | unreadable why => exact .throw why
    | database message => exact .bind (report_reports _ _ _) fun _ => .throw _

/-- A statement that is not sent could not be reported: statements are reported, and the parameters
cannot be printed. -/
theorem query_unsent {o : Observer} {text : String} {params : List Value} {e : Engine}
    (h : ((query o text params).runOn e).2.connection.trace = e.connection.trace) :
    e.logStatements = true ∧ ∃ why, o.literal (.list params) = .error why ∧
      ((query o text params).runOn e).1 = .error (.ofUnprintable why) := by
  have hunsent {e' : Engine}
      (hreported : (reportStatement (statementMessage o text params)).runOn e = (.ok (), e')) :
      False := by
    obtain ⟨x, hsent, -⟩ := query_of_reported hreported
    rw [h] at hsent
    simp at hsent
  have hlog : e.logStatements = true := by
    rw [← Bool.not_eq_false]
    intro hsilent
    have hreported : (reportStatement (statementMessage o text params)).runOn e = (.ok (), e) := by
      rw [reportStatement, Action.runOn_bind_ok (Action.runOn_get e), hsilent]
      rfl
    exact hunsent hreported
  refine ⟨hlog, ?_⟩
  cases hmessage : statementMessage o text params with
  | ok message =>
    have hreported : (reportStatement (statementMessage o text params)).runOn e =
        (.ok (), { e with journal := e.journal ++ [⟨.info, source, message⟩] }) := by
      rw [reportStatement, Action.runOn_bind_ok (Action.runOn_get e), if_pos hlog, hmessage]
      rfl
    exact (hunsent hreported).elim
  | error why =>
    refine ⟨why, ?_, ?_⟩
    · rw [statementMessage] at hmessage
      split at hmessage
      · cases hmessage
      · rcases bind_eq_error.mp hmessage with hliteral | ⟨_, -, hpure⟩
        · exact hliteral
        · cases hpure
    · have hreported : (reportStatement (statementMessage o text params)).runOn e =
          (.error (.ofUnprintable why), e) := by
        rw [reportStatement, Action.runOn_bind_ok (Action.runOn_get e), if_pos hlog, hmessage]
        rfl
      rw [query, Action.runOn_bind_error hreported]

end RowMapper.Engine
