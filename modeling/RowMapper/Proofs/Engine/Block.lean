import RowMapper.Engine
import RowMapper.Proofs.Action

/-!
# How a transaction block is left

A block opens a transaction, runs its body and ends the transaction: it commits if the body ended
well, and it rolls back if the body or the commit failed and the engine is still in a transaction.

What the body does is left open: any action on the engine, whatever it sends and whatever the
database replies.  `transaction_left` starts from the engine as the body leaves it and says what is
sent then, how the block ends, and that no transaction is left behind.  There is one lemma for each
operation of the engine, which says what it adds to the trace and what becomes of the flag.
-/
namespace RowMapper.Engine

open Connection (beginText commitText rollbackText)

/-! ## 1. Commands -/

/-- A statement without parameters and how it was answered. -/
def asked (text : String) (reply : Except Refusal Answer) : Exchange :=
  ⟨.statement text [], [], reply⟩

/-- The fault of a command that is refused. -/
def refusalFault (text : String) : Refusal → Fault
  | .database message =>
    .database ("Query failed: " ++ message ++ " [" ++ text ++ "]") (some text) (some [])
  | .overflow message => .overflow message
  | .unreadable why => why

/-- How a command ends, by its reply. -/
def ending (text : String) : Except Refusal Answer → Except Fault Unit
  | .ok _ => .ok ()
  | .error refusal => .error (refusalFault text refusal)

/-- An engine that has sent one command more. -/
structure Sent (text : String) (reply : Except Refusal Answer) (e e' : Engine) : Prop where
  trace : e'.connection.trace = e.connection.trace ++ [asked text reply]
  flag : e'.inTransaction = e.inTransaction

theorem execute_trace (c : Connection) (text : String) (params : List Value) (seen : List View) :
    (c.execute text params seen).2.trace =
      c.trace ++ [⟨.statement text params, seen, (c.execute text params seen).1⟩] := by
  unfold Connection.execute
  split <;> rfl

/-- The report of a command can always be printed. -/
theorem reportStatement_runOn (text : String) (e : Engine) :
    ∃ e', (reportStatement (statementMessage .blind text [])).runOn e = (.ok (), e') ∧
      e'.connection = e.connection ∧ e'.inTransaction = e.inTransaction := by
  obtain ⟨connection, flag, logStatements, debugging, journal⟩ := e
  cases logStatements <;> exact ⟨_, rfl, rfl, rfl⟩

theorem send_runOn (text : String) (params : List Value) (seen : List View) (e : Engine) :
    (send text params seen).runOn e = (.ok (e.connection.execute text params seen).1,
      { e with connection := (e.connection.execute text params seen).2 }) := rfl

theorem query_runOn (text : String) (e : Engine) :
    ∃ reply e', (query .blind text []).runOn e = (reply.mapError (refusalFault text), e') ∧
      Sent text reply e e' := by
  obtain ⟨e₁, hreport, hconnection, hflag⟩ := reportStatement_runOn text e
  have htrace := execute_trace e₁.connection text [] []
  have hsend := send_runOn text [] [] e₁
  rw [hconnection] at htrace
  rcases hexecute : e₁.connection.execute text [] [] with ⟨reply, c⟩
  rw [hconnection] at hexecute
  rw [hconnection, hexecute] at hsend
  rw [hexecute] at htrace
  refine ⟨reply, ?_⟩
  rw [query, Action.runOn_bind_ok hreport, List.map_nil, Action.runOn_bind_ok hsend]
  cases reply with
  | ok answer => exact ⟨_, rfl, htrace, hflag⟩
  | error refusal => cases refusal <;> exact ⟨_, rfl, htrace, hflag⟩

theorem command_runOn (text : String) (e : Engine) :
    ∃ reply e', (command text).runOn e = (ending text reply, e') ∧ Sent text reply e e' := by
  obtain ⟨reply, e', hquery, hsent⟩ := query_runOn text e
  refine ⟨reply, e', ?_, hsent⟩
  rw [command, Action.runOn_bind, hquery]
  cases reply <;> rfl

/-! ## 2. Ending a transaction -/

/-- Whether the engine counts as in a transaction after a commit was tried: not if it went well, and
after an error of the database only if the connection does. -/
def openAfter (c : Connection) : Except Fault Unit → Bool
  | .ok _ => false
  | .error (.database _ _ _) => c.inTransaction
  | .error _ => true

theorem commit_closed {e : Engine} (h : e.inTransaction = false) :
    commit.runOn e = (.error (.transaction .nothingToCommit), e) := by
  rw [commit, Action.runOn_bind_ok (Action.runOn_get e), h]
  rfl

theorem commit_open {e : Engine} (h : e.inTransaction = true) :
    ∃ reply e', commit.runOn e = (ending commitText reply, e') ∧
      e'.connection.trace = e.connection.trace ++ [asked commitText reply] ∧
      e'.inTransaction = openAfter e'.connection (ending commitText reply) := by
  obtain ⟨reply, e₁, hcommand, htrace, hflag⟩ := command_runOn commitText e
  have hattempt : (command commitText).attempt.runOn e = (.ok (ending commitText reply), e₁) := by
    rw [Action.runOn_attempt, hcommand]
  refine ⟨reply, ?_⟩
  rw [commit, Action.runOn_bind_ok (Action.runOn_get e), h]
  show ∃ e', Action.runOn (_ >>= _) e = _ ∧ _
  rw [Action.runOn_bind_ok hattempt]
  rw [h] at hflag
  obtain ⟨⟨replies, connected, closed, trace⟩, flag, logStatements, debugging, journal⟩ := e₁
  cases ending commitText reply with
  | ok _ => exact ⟨_, rfl, htrace, rfl⟩
  | error fault =>
    cases fault with
    | database message statement params =>
      -- the flag of the connection decides whether that of the engine is cleared
      cases connected with
      | false => exact ⟨_, rfl, htrace, rfl⟩
      | true => exact ⟨_, rfl, htrace, hflag⟩
    | _ => exact ⟨_, rfl, htrace, hflag⟩

theorem rollback_runOn {e : Engine} (h : e.inTransaction = true) :
    ∃ reply e', rollback.runOn e = (ending rollbackText reply, e') ∧
      e'.connection.trace = e.connection.trace ++ [asked rollbackText reply] ∧
      e'.inTransaction = false := by
  obtain ⟨reply, e₁, hcommand, htrace, hflag⟩ := command_runOn rollbackText e
  have hattempt :
      (command rollbackText).attempt.runOn e = (.ok (ending rollbackText reply), e₁) := by
    rw [Action.runOn_attempt, hcommand]
  refine ⟨reply, ?_⟩
  rw [rollback, Action.runOn_bind_ok (Action.runOn_get e), h]
  show ∃ e', Action.runOn (_ >>= _) e = _ ∧ _
  rw [Action.runOn_bind_ok hattempt]
  cases ending rollbackText reply with
  | ok _ => exact ⟨_, rfl, htrace, rfl⟩
  | error fault => exact ⟨_, rfl, htrace, rfl⟩

theorem rollback_refused {e : Engine} (h : e.inTransaction = false) :
    rollback.runOn e = (.error (.transaction .nothingToRollBack), e) := by
  rw [rollback, Action.runOn_bind_ok (Action.runOn_get e), h]
  rfl

theorem rollbackIfOpen_runOn (e : Engine) :
    rollbackIfOpen.runOn e = if e.inTransaction then rollback.runOn e else (.ok (), e) := by
  rw [rollbackIfOpen, Action.runOn_bind_ok (Action.runOn_get e)]
  cases e.inTransaction <;> rfl

theorem rollback_closed {e : Engine} (h : e.inTransaction = false) :
    rollbackIfOpen.runOn e = (.ok (), e) := by
  rw [rollbackIfOpen_runOn, h]
  rfl

theorem rollback_open {e : Engine} (h : e.inTransaction = true) :
    ∃ reply e', rollbackIfOpen.runOn e = (ending rollbackText reply, e') ∧
      e'.connection.trace = e.connection.trace ++ [asked rollbackText reply] ∧
      e'.inTransaction = false := by
  rw [rollbackIfOpen_runOn, if_pos h]
  exact rollback_runOn h

/-! ## 3. Leaving the block -/

/-- The failure that a block has to be left with, and the engine at that moment: that of the body,
or that of the commit after a body that ended well. -/
inductive Failed (e : Engine) : Except Fault Unit → Fault → Engine → Prop
  | body (fault : Fault) : Failed e (.error fault) fault e
  | commit {fault : Fault} {after : Engine} (h : commit.runOn e = (.error fault, after)) :
      Failed e (.ok ()) fault after

/-- How a block is left after a body that ended in a given way, from the engine `e` to the engine
`e'`, with the exchanges that are made on leaving. -/
structure BlockLeft (outcome : Except Fault Unit) (e : Engine) (result : Except Fault Unit)
    (e' : Engine) (sent : List Exchange) : Prop where
  trace : e'.connection.trace = e.connection.trace ++ sent
  /-- No transaction is left behind. -/
  closed : e'.inTransaction = false
  /-- The block ends well if the body did, inside the transaction, and its changes are kept. -/
  ok_iff : result = .ok () ↔ outcome = .ok () ∧ e.inTransaction = true ∧
    ∃ answer, asked commitText (.ok answer) ∈ sent
  /-- Nothing is kept of a body that failed. -/
  no_commit : ∀ fault, outcome = .error fault → ∀ x ∈ sent, x.call ≠ .statement commitText []
  /-- After a failure the changes are dropped if the engine still counts as in a transaction. -/
  rollback_iff : ∀ fault after, Failed e outcome fault after →
    ((∃ reply, asked rollbackText reply ∈ sent) ↔ after.inTransaction = true)
  /-- The failure that leaves the block is the first one, unless rolling back failed. -/
  fault_kept : ∀ fault after, Failed e outcome fault after →
    (∀ refusal, asked rollbackText (.error refusal) ∉ sent) → result = .error fault
  fault_replaced : ∀ refusal, asked rollbackText (.error refusal) ∈ sent →
    result = .error (refusalFault rollbackText refusal)

/-- What follows a failure: how the block ends, and what is sent for it. -/
inductive Dropped (fault : Fault) (after : Engine) : Except Fault Unit → List Exchange → Prop
  | nothing (closed : after.inTransaction = false) : Dropped fault after (.error fault) []
  | all {answer : Answer} (opened : after.inTransaction = true) :
      Dropped fault after (.error fault) [asked rollbackText (.ok answer)]
  | refused {refusal : Refusal} (opened : after.inTransaction = true) :
      Dropped fault after (.error (refusalFault rollbackText refusal))
        [asked rollbackText (.error refusal)]

theorem drop_runOn (fault : Fault) (after : Engine) :
    ∃ result e' dropped, (do rollbackIfOpen; throw fault : Action Engine Unit).runOn after =
        (result, e') ∧
      e'.connection.trace = after.connection.trace ++ dropped ∧ e'.inTransaction = false ∧
      Dropped fault after result dropped := by
  cases hflag : after.inTransaction with
  | false =>
    refine ⟨.error fault, after, [], ?_, by simp, hflag, .nothing hflag⟩
    rw [Action.runOn_bind_ok (rollback_closed hflag), Action.runOn_throw]
  | true =>
    obtain ⟨reply, e', hrollback, htrace, hclosed⟩ := rollback_open hflag
    cases reply with
    | ok answer =>
      refine ⟨.error fault, e', _, ?_, htrace, hclosed, .all hflag⟩
      rw [Action.runOn_bind_ok hrollback, Action.runOn_throw]
    | error refusal =>
      refine ⟨_, e', _, ?_, htrace, hclosed, .refused hflag⟩
      rw [Action.runOn_bind_error hrollback]

section Dropped

variable {fault : Fault} {after : Engine} {result : Except Fault Unit} {dropped : List Exchange}

theorem Dropped.failed (h : Dropped fault after result dropped) : result ≠ .ok () := by
  cases h <;> simp

theorem Dropped.call (h : Dropped fault after result dropped) :
    ∀ x ∈ dropped, x.call = .statement rollbackText [] := by
  cases h <;> simp [asked]

theorem Dropped.rollback_iff (h : Dropped fault after result dropped) :
    (∃ reply, asked rollbackText reply ∈ dropped) ↔ after.inTransaction = true := by
  cases h with
  | nothing closed => simp [closed]
  | all opened => simp [opened]
  | refused opened => simp [opened]

theorem Dropped.fault_kept (h : Dropped fault after result dropped)
    (hnone : ∀ refusal, asked rollbackText (.error refusal) ∉ dropped) : result = .error fault := by
  cases h with
  | nothing _ => rfl
  | all _ => rfl
  | @refused refusal _ => exact absurd (List.mem_singleton_self _) (hnone refusal)

theorem Dropped.fault_replaced (h : Dropped fault after result dropped) {refusal : Refusal}
    (hmem : asked rollbackText (.error refusal) ∈ dropped) :
    result = .error (refusalFault rollbackText refusal) := by
  cases h with
  | nothing _ => cases hmem
  | all _ => cases List.mem_singleton.mp hmem
  | refused _ =>
    cases List.mem_singleton.mp hmem
    rfl

end Dropped

theorem Failed.unique {e after after' : Engine} {outcome : Except Fault Unit} {fault fault' : Fault}
    (h : Failed e outcome fault after) (h' : Failed e outcome fault' after') :
    fault' = fault ∧ after' = after := by
  cases h with
  | body => cases h' with | body => exact ⟨rfl, rfl⟩
  | commit h => cases h' with
    | commit h' =>
      rw [h] at h'
      cases h'
      exact ⟨rfl, rfl⟩

/-- A block that is left with a failure, from what was tried before it and what was dropped then. -/
theorem BlockLeft.of_failed {outcome result : Except Fault Unit} {e after e' : Engine}
    {fault : Fault} {tried dropped : List Exchange} (hfailed : Failed e outcome fault after)
    (htried : after.connection.trace = e.connection.trace ++ tried)
    (hcommit : ∀ x ∈ tried, outcome = .ok () ∧ ∃ refusal, x = asked commitText (.error refusal))
    (htrace : e'.connection.trace = after.connection.trace ++ dropped)
    (hclosed : e'.inTransaction = false) (hdropped : Dropped fault after result dropped) :
    BlockLeft outcome e result e' (tried ++ dropped) := by
  have hcall : Call.statement rollbackText [] ≠ .statement commitText [] := by
    simp [rollbackText, commitText]
  have hrollback (reply : Except Refusal Answer) :
      asked rollbackText reply ∈ tried ++ dropped ↔ asked rollbackText reply ∈ dropped := by
    refine ⟨fun h => ?_, List.mem_append_right _⟩
    rcases List.mem_append.mp h with h | h
    · obtain ⟨-, refusal, hasked⟩ := hcommit _ h
      exact absurd (congrArg Exchange.call hasked) hcall
    · exact h
  refine ⟨by rw [htrace, htried, List.append_assoc], hclosed, ?_, ?_, ?_, ?_, ?_⟩
  · refine ⟨fun h => absurd h hdropped.failed, ?_⟩
    rintro ⟨-, -, answer, hmem⟩
    rcases List.mem_append.mp hmem with h | h
    · obtain ⟨-, refusal, hasked⟩ := hcommit _ h
      cases hasked
    · exact absurd (hdropped.call _ h).symm hcall
  · intro fault' houtcome x hx
    rcases List.mem_append.mp hx with h | h
    · rw [houtcome] at hcommit
      cases (hcommit x h).1
    · rw [hdropped.call x h]
      exact hcall
  · intro fault' after' h
    obtain ⟨rfl, rfl⟩ := hfailed.unique h
    simp only [hrollback]
    exact hdropped.rollback_iff
  · intro fault' after' h hnone
    obtain ⟨rfl, rfl⟩ := hfailed.unique h
    exact hdropped.fault_kept fun refusal hmem => hnone refusal ((hrollback _).mpr hmem)
  · intro refusal hmem
    exact hdropped.fault_replaced ((hrollback _).mp hmem)

/-- Leaving a block after a body that failed. -/
theorem leaveTransaction_error (fault : Fault) (e : Engine) :
    ∃ result e' sent, (leaveTransaction (.error fault)).runOn e = (result, e') ∧
      BlockLeft (.error fault) e result e' sent := by
  obtain ⟨result, e', dropped, hrun, htrace, hclosed, hdropped⟩ := drop_runOn fault e
  have htried : e.connection.trace = e.connection.trace ++ [] := (List.append_nil _).symm
  exact ⟨result, e', [] ++ dropped, hrun,
    .of_failed (.body fault) htried (by simp) htrace hclosed hdropped⟩

/-- Leaving a block whose commit failed. -/
theorem leaveTransaction_failed {e after : Engine} {fault : Fault} {tried : List Exchange}
    (hcommit : commit.runOn e = (.error fault, after))
    (htried : after.connection.trace = e.connection.trace ++ tried)
    (hrefused : ∀ x ∈ tried, ∃ refusal, x = asked commitText (.error refusal)) :
    ∃ result e' sent, (leaveTransaction (.ok ())).runOn e = (result, e') ∧
      BlockLeft (.ok ()) e result e' sent := by
  obtain ⟨result, e', dropped, hrun, htrace, hclosed, hdropped⟩ := drop_runOn fault after
  have hattempt : commit.attempt.runOn e = (.ok (.error fault), after) := by
    rw [Action.runOn_attempt, hcommit]
  refine ⟨result, e', tried ++ dropped, ?_, .of_failed (.commit hcommit) htried
    (fun x hx => ⟨rfl, hrefused x hx⟩) htrace hclosed hdropped⟩
  rw [leaveTransaction, Action.runOn_bind_ok hattempt]
  exact hrun

/-- Leaving a block whose changes are kept. -/
theorem BlockLeft.of_committed {e e' : Engine} {answer : Answer} (h : e.inTransaction = true)
    (hcommit : commit.runOn e = (.ok (), e'))
    (htrace : e'.connection.trace = e.connection.trace ++ [asked commitText (.ok answer)])
    (hclosed : e'.inTransaction = false) :
    BlockLeft (.ok ()) e (.ok ()) e' [asked commitText (.ok answer)] where
  trace := htrace
  closed := hclosed
  ok_iff := by simp [h]
  no_commit fault hfault := by cases hfault
  rollback_iff fault after hfailed := by
    cases hfailed with
    | commit hfailed =>
      rw [hcommit] at hfailed
      cases hfailed
  fault_kept fault after hfailed := by
    cases hfailed with
    | commit hfailed =>
      rw [hcommit] at hfailed
      cases hfailed
  fault_replaced refusal hmem := by
    have hcall := congrArg Exchange.call (List.mem_singleton.mp hmem)
    simp [asked, rollbackText, commitText] at hcall

/-- However the body ended, and whatever it has made of the engine. -/
theorem leaveTransaction_left (outcome : Except Fault Unit) (e : Engine) :
    ∃ result e' sent, (leaveTransaction outcome).runOn e = (result, e') ∧
      BlockLeft outcome e result e' sent := by
  cases outcome with
  | error fault => exact leaveTransaction_error fault e
  | ok _ =>
    cases hflag : e.inTransaction with
    | false =>
      have htried : e.connection.trace = e.connection.trace ++ [] := (List.append_nil _).symm
      exact leaveTransaction_failed (commit_closed hflag) htried (by simp)
    | true =>
      obtain ⟨reply, after, hcommit, htrace, hopen⟩ := commit_open hflag
      cases reply with
      | ok answer =>
        refine ⟨.ok (), after, _, ?_, .of_committed hflag hcommit htrace hopen⟩
        have hattempt : commit.attempt.runOn e = (.ok (.ok ()), after) := by
          rw [Action.runOn_attempt, hcommit]
          rfl
        rw [leaveTransaction, Action.runOn_bind_ok hattempt]
        rfl
      | error refusal =>
        exact leaveTransaction_failed hcommit htrace
          (fun x hx => ⟨refusal, List.mem_singleton.mp hx⟩)

/-- A block of the engine, once its transaction is open, whatever the body does. -/
theorem transaction_left (body : Action Engine Unit) {e e₁ e₂ e₃ : Engine}
    {outcome result : Except Fault Unit} (hbegin : begin.runOn e = (.ok (), e₁))
    (hbody : body.runOn e₁ = (outcome, e₂)) (hblock : (transaction body).runOn e = (result, e₃)) :
    ∃ sent, BlockLeft outcome e₂ result e₃ sent := by
  have hattempt : body.attempt.runOn e₁ = (.ok outcome, e₂) := by
    rw [Action.runOn_attempt, hbody]
  obtain ⟨result', e', sent, hrun, hleft⟩ := leaveTransaction_left outcome e₂
  rw [transaction, Action.runOn_bind_ok hbegin, Action.runOn_bind_ok hattempt, hrun] at hblock
  cases hblock
  exact ⟨sent, hleft⟩

end RowMapper.Engine
