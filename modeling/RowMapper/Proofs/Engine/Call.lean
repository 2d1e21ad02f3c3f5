import RowMapper.Proofs.Engine.Block

/-!
# The calls of the engine

Which calls the operations of the engine add to the trace of their connection, whatever the database
replies.
-/
namespace RowMapper

/-- A trace that goes on from another one with calls of some kind. -/
def Connection.Appends (P : Call → Prop) (before after : List Exchange) : Prop :=
  ∃ sent, after = before ++ sent ∧ ∀ x ∈ sent, P x.call

namespace Connection.Appends

variable {P Q : Call → Prop} {first second third : List Exchange}

theorem refl (trace : List Exchange) : Appends P trace trace :=
  ⟨[], (List.append_nil trace).symm, by simp⟩

theorem one {x : Exchange} (h : P x.call) : Appends P first (first ++ [x]) :=
  ⟨[x], rfl, fun _ hx => List.mem_singleton.mp hx ▸ h⟩

theorem trans (h : Appends P first second) (h' : Appends P second third) :
    Appends P first third := by
  obtain ⟨sent, rfl, hsent⟩ := h
  obtain ⟨more, rfl, hmore⟩ := h'
  refine ⟨sent ++ more, List.append_assoc first sent more, fun x hx => ?_⟩
  rcases List.mem_append.mp hx with hx | hx
  · exact hsent x hx
  · exact hmore x hx

theorem eq_of_none (h : Appends (fun _ => False) first second) : second = first := by
  obtain ⟨sent, rfl, hsent⟩ := h
  rw [List.eq_nil_iff_forall_not_mem.mpr hsent, List.append_nil]

theorem mono (hsub : ∀ call, P call → Q call) (h : Appends P first second) :
    Appends Q first second := by
  obtain ⟨sent, rfl, hsent⟩ := h
  exact ⟨sent, rfl, fun x hx => hsub _ (hsent x hx)⟩

end Connection.Appends

namespace Engine

open Connection (Appends beginText commitText rollbackText)

/-- An engine that another one becomes by calls of some kind. -/
def Makes (P : Call → Prop) (e e' : Engine) : Prop :=
  Appends P e.connection.trace e'.connection.trace

instance (P : Call → Prop) : IsPreorder Engine (Makes P) where
  refl e := .refl e.connection.trace
  trans _ _ _ h h' := h.trans h'

variable {P : Call → Prop}

theorem report_makes (level : Level) (source message : String) :
    (report level source message).Obeys (Makes P) := fun e => refl_of (Makes P) e

theorem reportStatement_makes (message : Printed) : (reportStatement message).Obeys (Makes P) :=
  .bind .get fun _ => .ite (.bind (.ofExcept _) fun _ => report_makes _ _ _) (.pure _)

theorem send_makes {text : String} {params : List Value} (h : P (.statement text params))
    (seen : List View) : (send text params seen).Obeys (Makes P) := by
  intro e
  rw [send_runOn]
  show Appends P e.connection.trace (e.connection.execute text params seen).2.trace
  rw [execute_trace]
  exact .one h

theorem query_makes {text : String} {params : List Value} (h : P (.statement text params))
    (o : Observer) : (query o text params).Obeys (Makes P) := by
  refine .bind (reportStatement_makes _) fun _ => .bind (send_makes h _) fun reply => ?_
  cases reply with
  | ok answer => exact .pure answer
  | error refusal =>
    cases refusal with
    | overflow message => exact .throw _
    | unreadable why => exact .throw why
    | database message => exact .bind (report_makes _ _ _) fun _ => .throw _

/-- A query that could be reported sends its statement. -/
theorem query_of_reported {o : Observer} {text : String} {params : List Value} {e e' : Engine}
    (h : (reportStatement (statementMessage o text params)).runOn e = (.ok (), e')) :
    ∃ x : Exchange, ((query o text params).runOn e).2.connection.trace = e.connection.trace ++ [x] ∧
      x.call = .statement text params := by
  have hsent := execute_trace e'.connection text params (params.map o.view)
  rw [((reportStatement_makes _).of_run h).eq_of_none] at hsent
  rw [query, Action.runOn_bind_ok h, Action.runOn_bind_ok (send_runOn text params _ e')]
  rcases hexecute : e'.connection.execute text params (params.map o.view) with
    ⟨refusal | answer, c⟩ <;> rw [hexecute] at hsent
  · cases refusal <;> exact ⟨_, hsent, rfl⟩
  · exact ⟨_, hsent, rfl⟩

/-- A query sends one statement at most: none if it cannot be reported. -/
theorem query_sent (o : Observer) (text : String) (params : List Value) (e : Engine) :
    ((query o text params).runOn e).2.connection.trace = e.connection.trace ∨
    ∃ x : Exchange, ((query o text params).runOn e).2.connection.trace = e.connection.trace ++ [x] ∧
      x.call = .statement text params := by
  rcases hreported : (reportStatement (statementMessage o text params)).runOn e with ⟨fault | _, e'⟩
  · refine .inl ?_
    rw [query, Action.runOn_bind_error hreported]
    exact ((reportStatement_makes _).of_run hreported).eq_of_none
  · exact .inr (query_of_reported hreported)

/-- A query sends one statement if its parameters can be printed. -/
theorem query_of_printed {o : Observer} {params : List Value} {printed : String}
    (h : o.literal (.list params) = .ok printed) (text : String) (e : Engine) :
    ∃ x : Exchange, ((query o text params).runOn e).2.connection.trace = e.connection.trace ++ [x] ∧
      x.call = .statement text params := by
  have hmessage : ∃ message, statementMessage o text params = .ok message := by
    unfold statementMessage
    split
    · exact ⟨_, rfl⟩
    · rw [h]
      exact ⟨_, rfl⟩
  obtain ⟨message, hmessage⟩ := hmessage
  have hreported : ∃ e', (reportStatement (statementMessage o text params)).runOn e = (.ok (), e') := by
    rw [hmessage, reportStatement, Action.runOn_bind_ok (Action.runOn_get e)]
    split <;> exact ⟨_, rfl⟩
  obtain ⟨e', hreported⟩ := hreported
  exact query_of_reported hreported

/-- An answer of a query is the answer to the statement that it sends. -/
theorem query_answered {o : Observer} {text : String} {params : List Value} {e e' : Engine}
    {answer : Answer} (h : (query o text params).runOn e = (.ok answer, e')) :
    ∃ x : Exchange, e'.connection.trace = e.connection.trace ++ [x] ∧ x.result = .ok answer := by
  obtain ⟨_, e₁, hreported, h⟩ := Action.runOn_bind_eq_ok.mp h
  have hreport := ((reportStatement_makes _).of_run hreported).eq_of_none
  obtain ⟨reply, e₂, hsend, h⟩ := Action.runOn_bind_eq_ok.mp h
  rw [send_runOn] at hsend
  cases hsend
  have hsent := execute_trace e₁.connection text params (params.map o.view)
  rw [hreport] at hsent
  cases hreply : (e₁.connection.execute text params (params.map o.view)).1 with
  | ok reply =>
    rw [hreply] at h hsent
    cases h
    exact ⟨_, hsent, rfl⟩
  | error refusal =>
    rw [hreply] at h
    cases refusal <;> cases h

/-- A query whose statement was answered ends with that answer. -/
theorem query_of_answer {o : Observer} {text : String} {params : List Value} {e : Engine}
    {x : Exchange} {answer : Answer}
    (htrace : ((query o text params).runOn e).2.connection.trace = e.connection.trace ++ [x])
    (hx : x.result = .ok answer) : ((query o text params).runOn e).1 = .ok answer := by
  have hreport := (reportStatement_makes (statementMessage o text params) e).eq_of_none
  rw [query, Action.runOn_bind] at htrace ⊢
  rcases hreported : (reportStatement (statementMessage o text params)).runOn e with ⟨_ | _, e₁⟩ <;>
    rw [hreported] at hreport htrace
  · rw [hreport] at htrace
    simp at htrace
  · have hsent := execute_trace e₁.connection text params (params.map o.view)
    rw [hreport] at hsent
    dsimp only at htrace ⊢
    rw [Action.runOn_bind_ok (send_runOn text params _ e₁)] at htrace ⊢
    rcases hexecute : e₁.connection.execute text params (params.map o.view) with
      ⟨refusal | found, c⟩ <;> rw [hexecute] at htrace hsent
    · cases refusal <;> cases List.append_cancel_left (htrace.symm.trans hsent) <;> cases hx
    · cases List.append_cancel_left (htrace.symm.trans hsent)
      cases hx
      rfl

theorem command_makes {text : String} (h : P (.statement text [])) :
    (command text).Obeys (Makes P) := .bind (query_makes h _) fun _ => .pure _

theorem executeScript_makes {text : String} (h : P (.script text)) :
    (executeScript text).Obeys (Makes P) := by
  have hcall (e : Engine) :
      Makes P e { e with connection := (e.connection.executeScript text).2 } := by
    show Appends P e.connection.trace (e.connection.executeScript text).2.trace
    unfold Connection.executeScript
    split <;> exact .one h
  refine .bind (reportStatement_makes _) fun _ => fun e => ?_
  rw [Action.runOn_bind_ok (Action.runOn_get e)]
  have hcall := hcall e
  rcases hexecute : e.connection.executeScript text with ⟨result, connection⟩
  rw [hexecute] at hcall
  cases result with
  | ok _ => exact hcall
  | error refusal => cases refusal <;> exact hcall

theorem setFlag_makes (active : Bool) : (setFlag active).Obeys (Makes P) :=
  fun e => refl_of (Makes P) e

theorem close_makes (h : P .close) : close.Obeys (Makes P) := fun _ => .one h

section Control

variable (hcontrol : ∀ text ∈ [beginText, commitText, rollbackText], P (.statement text []))
include hcontrol

theorem begin_makes : begin.Obeys (Makes P) :=
  .bind .get fun _ => .guarded fun _ => .bind (command_makes (hcontrol _ (by simp))) fun _ =>
    .bind (setFlag_makes true) fun _ => report_makes _ _ _

theorem commit_makes : commit.Obeys (Makes P) := by
  refine .bind .get fun _ => .guarded fun _ =>
    .bind (.attempt (command_makes (hcontrol _ (by simp)))) fun outcome => ?_
  cases outcome with
  | ok _ => exact .bind (setFlag_makes false) fun _ => report_makes _ _ _
  | error fault =>
    cases fault with
    | database message statement params =>
      exact .bind .get fun _ => .ite (.bind (setFlag_makes false) fun _ => .bind (.throw _) fun _ =>
        report_makes _ _ _) (.bind (.throw _) fun _ => report_makes _ _ _)
    | _ => exact .bind (.throw _) fun _ => report_makes _ _ _

theorem rollback_makes : rollback.Obeys (Makes P) :=
  .bind .get fun _ => .guarded fun _ =>
    .bind (.attempt (command_makes (hcontrol _ (by simp)))) fun _ =>
      .bind (setFlag_makes false) fun _ => .bind (.ofExcept _) fun _ => report_makes _ _ _

theorem rollbackIfOpen_makes : rollbackIfOpen.Obeys (Makes P) :=
  .bind .get fun _ => .ite (rollback_makes hcontrol) (.pure _)

theorem leaveTransaction_makes (outcome : Except Fault Unit) :
    (leaveTransaction outcome).Obeys (Makes P) := by
  cases outcome with
  | error fault => exact .bind (rollbackIfOpen_makes hcontrol) fun _ => .throw fault
  | ok _ =>
    refine .bind (.attempt (commit_makes hcontrol)) fun tried => ?_
    cases tried with
    | ok _ => exact .pure _
    | error fault => exact .bind (rollbackIfOpen_makes hcontrol) fun _ => .throw fault

theorem leave_makes (hclose : P .close) (outcome : Except Fault Unit) :
    (leave outcome).Obeys (Makes P) :=
  .bind (rollbackIfOpen_makes hcontrol) fun _ => .bind (close_makes hclose) fun _ => .ofExcept _

theorem leaveSession_makes (hclose : P .close) (outcome : Except Fault Unit) :
    (leaveSession outcome).Obeys (Makes P) := by
  have hclosing :
      (close >>= fun _ => Action.ofExcept outcome : Action Engine Unit).Obeys (Makes P) :=
    .bind (close_makes hclose) fun _ => .ofExcept _
  cases outcome with
  | ok _ => exact hclosing
  | error fault => exact .bind (rollbackIfOpen_makes hcontrol) fun _ => hclosing

end Control

end Engine
end RowMapper
