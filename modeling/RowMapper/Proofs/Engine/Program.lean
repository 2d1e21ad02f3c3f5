import RowMapper.Proofs.Engine.Call

/-!
# Programs over an engine

A `Program` is anything that a client can do with the five operations for statements and
transactions: it calls one after another, may look at what each of them answered or how it failed
before it goes on, and may open transaction blocks inside each other and leave them with a failure.

The run of a program consists of turns, in each of which the engine is asked for one thing.
Transaction blocks take turns too: one to begin, and those on leaving.  `Program.turns` lists them,
and `turns_chain` says that nothing happens between them, so what holds of every turn holds along
the run.
-/
namespace RowMapper.Engine

open Connection (beginText commitText rollbackText)

/-! ## 1. Turns -/

/-- What the engine is asked for in one turn. -/
inductive Use where
  | query (o : Observer) (text : String) (params : List Value)
  | begin
  | commit
  | rollback

/-- The operation, with the answer of a query. -/
def Use.run : Use → Action Engine (Option Answer)
  | .query o text params => do return some (← Engine.query o text params)
  | .begin => do
    Engine.begin
    return none
  | .commit => do
    Engine.commit
    return none
  | .rollback => do
    Engine.rollback
    return none

/-- One turn: what is asked for, and the engine that is asked. -/
structure Turn where
  use : Use
  before : Engine

namespace Turn

/-- How the turn ends. -/
def outcome (t : Turn) : Except Fault (Option Answer) := (t.use.run.runOn t.before).1

/-- The engine after the turn. -/
def after (t : Turn) : Engine := (t.use.run.runOn t.before).2

/-- What was exchanged with the database in the turn. -/
def sent (t : Turn) : List Exchange :=
  t.after.connection.trace.drop t.before.connection.trace.length

end Turn

/-- The turns lead from one engine to another, and each starts where the one before it ended. -/
def Chain : Engine → List Turn → Engine → Prop
  | e, [], e' => e' = e
  | e, t :: rest, e' => t.before = e ∧ Chain t.after rest e'

theorem Chain.append {e e₁ e' : Engine} {ts us : List Turn} (h : Chain e ts e₁)
    (h' : Chain e₁ us e') : Chain e (ts ++ us) e' := by
  induction ts generalizing e with
  | nil =>
    cases h
    exact h'
  | cons t rest ih => exact ⟨h.1, ih h.2⟩

theorem Chain.split {e e' : Engine} {ts us : List Turn} (h : Chain e (ts ++ us) e') :
    ∃ e₁, Chain e ts e₁ ∧ Chain e₁ us e' := by
  induction ts generalizing e with
  | nil => exact ⟨e, rfl, h⟩
  | cons t rest ih =>
    obtain ⟨e₁, hrest, hus⟩ := ih h.2
    exact ⟨e₁, ⟨h.1, hrest⟩, hus⟩

/-! ## 2. Programs -/

/-- What a client does: it goes on by how the last thing ended. -/
inductive Program where
  | done (outcome : Except Fault Unit)
  | call (use : Use) (next : Except Fault (Option Answer) → Program)
  | transaction (body : Program) (next : Except Fault Unit → Program)

namespace Program

/-- Runs a program over an engine. -/
def run : Program → Action Engine Unit
  | .done outcome => Action.ofExcept outcome
  | .call use next => do (next (← use.run.attempt)).run
  | .transaction body next => do (next (← (Engine.transaction body.run).attempt)).run

/-- The turn in which an open transaction is rolled back. -/
def droppingTurns (e : Engine) : List Turn := if e.inTransaction then [⟨.rollback, e⟩] else []

/-- The turns in which a transaction block is left. -/
def leavingTurns (e : Engine) : Except Fault Unit → List Turn
  | .ok _ =>
    let committing : Turn := ⟨.commit, e⟩
    match committing.outcome with
    | .ok _ => [committing]
    | .error _ => committing :: droppingTurns committing.after
  | .error _ => droppingTurns e

/-- The turns of a run of a program. -/
def turns : Program → Engine → List Turn
  | .done _, _ => []
  | .call use next, e =>
    let turn : Turn := ⟨use, e⟩
    turn :: (next turn.outcome).turns turn.after
  | .transaction body next, e =>
    let beginning : Turn := ⟨.begin, e⟩
    let (left, after) := (Engine.transaction body.run).runOn e
    match beginning.outcome with
    | .error _ => beginning :: (next left).turns after
    | .ok _ =>
      let (outcome, ran) := body.run.runOn beginning.after
      beginning :: body.turns beginning.after ++ leavingTurns ran outcome ++ (next left).turns after

end Program

/-! ## 3. The turns of a run -/

theorem Turn.begin_eq (e : Engine) :
    ((Turn.mk .begin e).outcome, (Turn.mk .begin e).after) =
      ((Engine.begin.runOn e).1.map fun _ => none, (Engine.begin.runOn e).2) :=
  Action.runOn_bind_pure Engine.begin (fun _ => none) e

theorem Turn.commit_eq (e : Engine) :
    ((Turn.mk .commit e).outcome, (Turn.mk .commit e).after) =
      ((Engine.commit.runOn e).1.map fun _ => none, (Engine.commit.runOn e).2) :=
  Action.runOn_bind_pure Engine.commit (fun _ => none) e

theorem Turn.rollback_eq (e : Engine) :
    (Turn.mk .rollback e).after = (Engine.rollback.runOn e).2 :=
  Action.after_bind_pure Engine.rollback (fun _ => none) e

theorem droppingTurns_chain (e : Engine) :
    Chain e (Program.droppingTurns e) (rollbackIfOpen.runOn e).2 := by
  rw [rollbackIfOpen_runOn, Program.droppingTurns]
  cases e.inTransaction with
  | false => rfl
  | true => exact ⟨rfl, (Turn.rollback_eq e).symm⟩

/-- The state after dropping and failing is that after dropping. -/
theorem after_drop (fault : Fault) (e : Engine) :
    ((do rollbackIfOpen; throw fault : Action Engine Unit).runOn e).2 =
      (rollbackIfOpen.runOn e).2 := by
  rw [Action.runOn_bind]
  rcases rollbackIfOpen.runOn e with ⟨_ | _, _⟩ <;> rfl

theorem leavingTurns_chain (e : Engine) (outcome : Except Fault Unit) :
    Chain e (Program.leavingTurns e outcome) ((leaveTransaction outcome).runOn e).2 := by
  cases outcome with
  | error fault =>
    rw [leaveTransaction, after_drop]
    exact droppingTurns_chain e
  | ok _ =>
    obtain ⟨houtcome, hafter⟩ := Prod.mk.inj (Turn.commit_eq e)
    rw [leaveTransaction, Action.runOn_attempt_bind, Program.leavingTurns, houtcome]
    cases hcommit : (Engine.commit.runOn e).1 with
    | ok _ => exact ⟨rfl, hafter.symm⟩
    | error fault =>
      refine ⟨rfl, ?_⟩
      rw [after_drop, hafter]
      exact droppingTurns_chain _

/-- A block runs its body and is left, if its transaction could be begun. -/
theorem transaction_runOn (body : Action Engine Unit) (e : Engine) :
    (Engine.transaction body).runOn e =
      match Engine.begin.runOn e with
      | (.error fault, e₁) => (.error fault, e₁)
      | (.ok _, e₁) =>
        (leaveTransaction (body.runOn e₁).1).runOn (body.runOn e₁).2 := by
  rw [Engine.transaction, Action.runOn_bind]
  rcases Engine.begin.runOn e with ⟨_ | _, e₁⟩
  · rfl
  · exact Action.runOn_attempt_bind body _ e₁

/-- **The turns of a program are its run**: they follow on each other from the engine at first to
the engine at last. -/
theorem turns_chain (p : Program) (e : Engine) : Chain e (p.turns e) (p.run.runOn e).2 := by
  induction p generalizing e with
  | done outcome =>
    rw [Program.run, Action.runOn_ofExcept]
    rfl
  | call use next ih =>
    rw [Program.run, Action.runOn_attempt_bind]
    exact ⟨rfl, ih _ _⟩
  | transaction body next ihBody ihNext =>
    obtain ⟨houtcome, hafter⟩ := Prod.mk.inj (Turn.begin_eq e)
    rw [Program.run, Action.runOn_attempt_bind, Program.turns]
    dsimp only
    have hnext := ihNext ((Engine.transaction body.run).runOn e).1
      ((Engine.transaction body.run).runOn e).2
    rw [houtcome]
    have hblock := transaction_runOn body.run e
    rcases hbegin : Engine.begin.runOn e with ⟨fault | _, e₁⟩
    · rw [hbegin] at hblock hafter
      refine ⟨rfl, ?_⟩
      rw [hafter]
      rw [hblock] at hnext ⊢
      exact hnext
    · rw [hbegin] at hblock hafter
      refine .append (.append ⟨rfl, ihBody _⟩ ?_) hnext
      rw [hafter, hblock]
      exact leavingTurns_chain _ _

/-! ## 4. What a turn can do -/

/-- The engine counts as in a transaction exactly if it did so before. -/
def SameFlag (e e' : Engine) : Prop := e'.inTransaction = e.inTransaction

instance : IsPreorder Engine SameFlag where
  refl _ := rfl
  trans _ _ _ h h' := h'.trans h

theorem report_sameFlag (level : Level) (source message : String) :
    (report level source message).Obeys SameFlag := fun _ => rfl

theorem query_sameFlag (o : Observer) (text : String) (params : List Value) :
    (query o text params).Obeys SameFlag := by
  have hreport (message : Printed) : (reportStatement message).Obeys SameFlag :=
    .bind .get fun _ => .ite (.bind (.ofExcept _) fun _ => report_sameFlag _ _ _) (.pure _)
  have hsend (seen : List View) : (send text params seen).Obeys SameFlag := fun _ => rfl
  refine .bind (hreport _) fun _ => .bind (hsend _) fun reply => ?_
  cases reply with
  | ok answer => exact .pure answer
  | error refusal =>
    cases refusal with
    | overflow message => exact .throw _
    | unreadable why => exact .throw why
    | database message => exact .bind (report_sameFlag _ _ _) fun _ => .throw _

theorem begin_refused {e : Engine} (h : e.inTransaction = true) :
    Engine.begin.runOn e = (.error (.transaction .alreadyActive), e) := by
  rw [Engine.begin, Action.runOn_bind_ok (Action.runOn_get e), h]
  rfl

theorem begin_runOn {e : Engine} (h : e.inTransaction = false) :
    ∃ reply e', Engine.begin.runOn e = (ending beginText reply, e') ∧
      e'.connection.trace = e.connection.trace ++ [asked beginText reply] ∧
      (e'.inTransaction = true ↔ ∃ answer, reply = .ok answer) := by
  obtain ⟨reply, e₁, hcommand, htrace, hflag⟩ := command_runOn beginText e
  refine ⟨reply, ?_⟩
  rw [Engine.begin, Action.runOn_bind_ok (Action.runOn_get e), h]
  show ∃ e', Action.runOn (_ >>= _) e = _ ∧ _
  cases reply with
  | ok answer =>
    rw [Action.runOn_bind_ok (a := ()) hcommand]
    exact ⟨_, rfl, htrace, by simp⟩
  | error refusal =>
    rw [Action.runOn_bind_error hcommand]
    exact ⟨_, rfl, htrace, by simp [hflag, h]⟩

/-- What a turn can do: what is exchanged, and when the engine counts as in a transaction then. -/
inductive Turn.Does (t : Turn) : List Exchange → Prop
  | queried {o : Observer} {text : String} {params : List Value} {sent : List Exchange}
      (use : t.use = .query o text params)
      (flag : t.after.inTransaction = t.before.inTransaction)
      (calls : ∀ x ∈ sent, x.call = .statement text params) : t.Does sent
  /-- Beginning inside a transaction, and ending none. -/
  | refused (use : ∀ o text params, t.use ≠ .query o text params) (same : t.after = t.before) :
      t.Does []
  | began {reply : Except Refusal Answer} (use : t.use = .begin)
      (outside : t.before.inTransaction = false)
      (flag : t.after.inTransaction = true ↔ ∃ answer, reply = .ok answer) :
      t.Does [asked beginText reply]
  | committed {reply : Except Refusal Answer} (use : t.use = .commit)
      (inside : t.before.inTransaction = true)
      (flag : t.after.inTransaction =
        openAfter t.after.connection (ending commitText reply)) :
      t.Does [asked commitText reply]
  | rolledBack {reply : Except Refusal Answer} (use : t.use = .rollback)
      (inside : t.before.inTransaction = true) (flag : t.after.inTransaction = false) :
      t.Does [asked rollbackText reply]

/-- A turn adds to the trace what is exchanged in it, and does one of the things that it can do. -/
theorem Turn.does (t : Turn) :
    t.after.connection.trace = t.before.connection.trace ++ t.sent ∧ t.Does t.sent := by
  suffices h : ∃ sent, t.after.connection.trace = t.before.connection.trace ++ sent ∧
      t.Does sent by
    obtain ⟨sent, htrace, hdoes⟩ := h
    have hsent : t.sent = sent := by rw [Turn.sent, htrace, List.drop_left]
    rw [hsent]
    exact ⟨htrace, hdoes⟩
  obtain ⟨use, e⟩ := t
  have none_sent {use : Use} (hafter : (Turn.mk use e).after = e)
      (hquery : ∀ o text params, use ≠ .query o text params) :
      ∃ sent, (Turn.mk use e).after.connection.trace = e.connection.trace ++ sent ∧
        (Turn.mk use e).Does sent :=
    ⟨[], by rw [hafter, List.append_nil], .refused hquery hafter⟩
  cases use with
  | query o text params =>
    have hafter : (Turn.mk (.query o text params) e).after = ((query o text params).runOn e).2 :=
      Action.after_bind_pure _ some e
    obtain ⟨sent, htrace, hcalls⟩ :=
      query_makes (P := (· = .statement text params)) rfl o e
    refine ⟨sent, by rw [hafter]; exact htrace, .queried rfl ?_ hcalls⟩
    rw [hafter]
    exact query_sameFlag o text params e
  | begin =>
    have hafter := (Prod.mk.inj (Turn.begin_eq e)).2
    cases hflag : e.inTransaction with
    | true =>
      rw [begin_refused hflag] at hafter
      exact none_sent hafter (by simp)
    | false =>
      obtain ⟨reply, e', hrun, htrace, hopen⟩ := begin_runOn hflag
      rw [hrun] at hafter
      exact ⟨_, by rw [hafter]; exact htrace, .began rfl hflag (by rw [hafter]; exact hopen)⟩
  | commit =>
    have hafter := (Prod.mk.inj (Turn.commit_eq e)).2
    cases hflag : e.inTransaction with
    | false =>
      rw [commit_closed hflag] at hafter
      exact none_sent hafter (by simp)
    | true =>
      obtain ⟨reply, e', hrun, htrace, hopen⟩ := commit_open hflag
      rw [hrun] at hafter
      exact ⟨_, by rw [hafter]; exact htrace, .committed rfl hflag (by rw [hafter]; exact hopen)⟩
  | rollback =>
    have hafter := Turn.rollback_eq e
    cases hflag : e.inTransaction with
    | false =>
      rw [rollback_refused hflag] at hafter
      exact none_sent hafter (by simp)
    | true =>
      obtain ⟨reply, e', hrun, htrace, hclosed⟩ := rollback_runOn hflag
      rw [hrun] at hafter
      exact ⟨_, by rw [hafter]; exact htrace,
        .rolledBack rfl hflag (by rw [hafter]; exact hclosed)⟩

end RowMapper.Engine
