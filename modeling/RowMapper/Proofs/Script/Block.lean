import RowMapper.Proofs.Engine.Leaving
import RowMapper.Proofs.World.Call
import RowMapper.Script.Run

/-!
# How the blocks of scripts are left

The body of a block is a list of steps, which may be blocks themselves and do anything that a script
can do with the world.  The block is entered and left by the engine, so it is left in the same way
as a block of the engine: `block_left` carries what is known of the engine over to the world.  There
are blocks that own a transaction, and blocks that own the connection.
-/
namespace RowMapper.Script

open Engine (BlockLeft OwnerLeft)
open World (onEngine onEngine_runOn)

/-- Keeping an answer in a variable does not reach the engine. -/
theorem keep_engine (w : World) (name : Option String) (outcome : Except Fault Value) :
    (keep w name outcome).engine = w.engine := by
  cases name <;> cases outcome <;> rfl

section

variable {frame : Frame} {kind : BlockKind} {steps : List Step} {abort : Option String}
  {endReplies : List ReplyDraft} {w entered ran after : World} {body result : Except Fault Unit}
  {reports : List Report} {outcome : Except Fault Value} {report : Report} {e' : Engine}

/-- A block that could be entered, after its steps have run: the engine leaves it. -/
theorem block_left
    (hblock : (Step.block frame kind steps abort endReplies).run w = (outcome, report, after))
    (henter : (onEngine kind.enter).runOn { w with replies := frame.replies } = (.ok (), entered))
    (hbody : runBody steps entered = (body, reports, ran))
    (hleave : (kind.leave (abortWith abort body)).runOn
      { ran with replies := endReplies }.expectantEngine = (result, e')) :
    outcome = result.map (fun _ => .null) ∧ after.engine = e' := by
  have hleaving : (onEngine (kind.leave (abortWith abort body))).runOn
      { ran with replies := endReplies } =
      (result, { ran with replies := endReplies }.withEngine e') := by
    rw [onEngine_runOn, hleave]
  rw [Step.run] at hblock
  simp only [henter, hbody, hleaving] at hblock
  cases hblock
  exact ⟨rfl, keep_engine _ _ _⟩

/-! ## 1. Transactions -/

theorem step_left
    (hbegin : (onEngine Engine.begin).runOn { w with replies := frame.replies } = (.ok (), entered))
    (hbody : runBody steps entered = (body, reports, ran))
    (hblock : (Step.block frame .transaction steps abort endReplies).run w =
      (outcome, report, after)) :
    ∃ result sent, outcome = result.map (fun _ => .null) ∧
      BlockLeft (abortWith abort body) { ran with replies := endReplies }.expectantEngine result
        after.engine sent := by
  obtain ⟨result, e', sent, hleave, hleft⟩ := Engine.leaveTransaction_left (abortWith abort body)
    { ran with replies := endReplies }.expectantEngine
  obtain ⟨houtcome, hafter⟩ := block_left hblock hbegin hbody hleave
  exact ⟨result, sent, houtcome, hafter ▸ hleft⟩

end

/-- **How a transaction block is left**, once its transaction is open: a block of the engine with
any action as its body, and a block of a script with any steps in it. -/
theorem transaction_block_left :
    (∀ (body : Action Engine Unit) (e e₁ e₂ e₃ : Engine) (outcome result : Except Fault Unit),
      Engine.begin.runOn e = (.ok (), e₁) → body.runOn e₁ = (outcome, e₂) →
      (Engine.transaction body).runOn e = (result, e₃) →
      ∃ sent, BlockLeft outcome e₂ result e₃ sent) ∧
    ∀ (frame : Frame) (steps : List Step) (abort : Option String) (endReplies : List ReplyDraft)
      (w entered ran after : World) (body : Except Fault Unit) (reports : List Report)
      (outcome : Except Fault Value) (report : Report),
      (onEngine Engine.begin).runOn { w with replies := frame.replies } = (.ok (), entered) →
      runBody steps entered = (body, reports, ran) →
      (Step.block frame .transaction steps abort endReplies).run w = (outcome, report, after) →
      ∃ result sent, outcome = result.map (fun _ => .null) ∧
        BlockLeft (abortWith abort body) { ran with replies := endReplies }.expectantEngine result
          after.engine sent := by
  refine ⟨?_, ?_⟩
  · intro body e e₁ e₂ e₃ outcome result hbegin hbody hblock
    exact Engine.transaction_left body hbegin hbody hblock
  · intro frame steps abort endReplies w entered ran after body reports outcome report
    exact step_left

/-- A refused commit while the connection stays in its transaction, and a script whose body has
rolled back on its own. -/
theorem refused_and_missing_commit_left :
    let done : Reply := ⟨.ok (.done .null .null), none⟩
    let refused : Reply := ⟨.error (.database "FOREIGN KEY constraint failed"), some true⟩
    let e : Engine := { connection := { replies := [done, refused, done] } }
    let fault : Fault := .database "Query failed: FOREIGN KEY constraint failed [COMMIT]"
      (some "COMMIT") (some [])
    let frame : Frame := { replies := [⟨.ok (.rows []), none⟩] }
    let steps : List Step := [.single { caught := true } .begin, .single frame .rollback]
    (∃ e₁ e₃ sent, Engine.begin.runOn e = (.ok (), e₁) ∧
      (Engine.transaction (pure ())).runOn e = (.error fault, e₃) ∧
      BlockLeft (.ok ()) e₁ (.error fault) e₃ sent) ∧
    ∃ report ran after result sent,
      (Step.block frame .transaction steps none []).run {} =
        (.error (.transaction .nothingToCommit), report, after) ∧
      (.error (.transaction .nothingToCommit) : Except Fault Value) = result.map (fun _ => .null) ∧
      BlockLeft (.ok ()) ran result after.engine sent := by
  intro done refused e fault frame steps
  refine ⟨?_, ?_⟩
  · obtain ⟨sent, hleft⟩ := transaction_block_left.1 (pure ()) e _ _ _ _ _ rfl rfl rfl
    exact ⟨_, _, sent, rfl, rfl, hleft⟩
  · obtain ⟨result, sent, houtcome, hleft⟩ :=
      transaction_block_left.2 frame steps none [] {} _ _ _ _ _ _ _ rfl rfl rfl
    exact ⟨_, _, _, result, sent, rfl, houtcome, hleft⟩

/-! ## 2. Owners of the connection -/

/-- The blocks that own the connection, by how their body ended, and whether an open transaction is
dropped when they are left. -/
inductive Owns : BlockKind → Except Fault Unit → Bool → Prop
  | engine (outcome : Except Fault Unit) : Owns .engine outcome true
  | failedSession (fault : Fault) : Owns .session (.error fault) true
  | session : Owns .session (.ok ()) false

theorem Owns.left {kind : BlockKind} {outcome : Except Fault Unit} {drops : Bool}
    (h : Owns kind outcome drops) (e : Engine) :
    ∃ result e' sent, (kind.leave outcome).runOn e = (result, e') ∧
      OwnerLeft drops outcome e result e' sent := by
  cases h with
  | engine => exact Engine.leave_left outcome e
  | failedSession fault => exact Engine.leave_left (.error fault) e
  | session => exact ⟨_, _, _, Engine.leaveSession_ok e, .of_kept nofun⟩

/-- **How a block that owns the connection is left**, by the engine and by a script with any steps
in its body: the connection is closed, unless a `ROLLBACK` was refused on leaving, and no
transaction is left behind where an open one is dropped. -/
theorem owning_block_left {kind : BlockKind} {outcome : Except Fault Unit} {drops : Bool}
    (howns : Owns kind outcome drops) :
    (∀ e : Engine, ∃ result e' sent, (kind.leave outcome).runOn e = (result, e') ∧
      OwnerLeft drops outcome e result e' sent) ∧
    ∀ (frame : Frame) (steps : List Step) (abort : Option String) (endReplies : List ReplyDraft)
      (w entered ran after : World) (body : Except Fault Unit) (reports : List Report)
      (answer : Except Fault Value) (report : Report),
      (onEngine kind.enter).runOn { w with replies := frame.replies } = (.ok (), entered) →
      runBody steps entered = (body, reports, ran) → abortWith abort body = outcome →
      (Step.block frame kind steps abort endReplies).run w = (answer, report, after) →
      ∃ result sent, answer = result.map (fun _ => .null) ∧
        OwnerLeft drops outcome { ran with replies := endReplies }.expectantEngine result
          after.engine sent := by
  refine ⟨howns.left, ?_⟩
  rintro frame steps abort endReplies w entered ran after body reports answer report henter hbody
    rfl hblock
  obtain ⟨result, e', sent, hleave, hleft⟩ :=
    howns.left { ran with replies := endReplies }.expectantEngine
  obtain ⟨hanswer, hafter⟩ := block_left hblock henter hbody hleave
  exact ⟨result, sent, hanswer, hafter ▸ hleft⟩

/-- A block that owns the engine drops what its body has begun, and one that owns a session does so
after a failure. -/
theorem begun_transactions_are_dropped :
    let done : ReplyDraft := ⟨.ok (.rows []), none⟩
    let steps : List Step := [.single { replies := [done] } .begin]
    let stop : Fault := .aborted "stop"
    (∃ report ran after result sent,
      (Step.block {} .engine steps none [done]).run {} = (.ok .null, report, after) ∧
      (.ok .null : Except Fault Value) = result.map (fun _ => .null) ∧
      OwnerLeft true (.ok ()) ran result after.engine sent) ∧
    ∃ report ran after result sent,
      (Step.block {} .session steps (some "stop") [done]).run {} = (.error stop, report, after) ∧
      (.error stop : Except Fault Value) = result.map (fun _ => .null) ∧
      OwnerLeft true (.error stop) ran result after.engine sent := by
  intro done steps stop
  refine ⟨?_, ?_⟩
  · obtain ⟨result, sent, hanswer, hleft⟩ :=
      (owning_block_left (.engine (.ok ()))).2 {} steps none [done] {} _ _ _ _ _ _ _ rfl rfl rfl rfl
    exact ⟨_, _, _, result, sent, rfl, hanswer, hleft⟩
  · obtain ⟨result, sent, hanswer, hleft⟩ := (owning_block_left (.failedSession stop)).2 {} steps
      (some "stop") [done] {} _ _ _ _ _ _ _ rfl rfl rfl rfl
    exact ⟨_, _, _, result, sent, rfl, hanswer, hleft⟩

/-- A session that is left well inside a transaction leaves the flag of the engine set, and an
engine whose `ROLLBACK` is refused leaves its connection open. -/
theorem owners_leave_a_flag_and_a_connection :
    let done : ReplyDraft := ⟨.ok (.rows []), none⟩
    let steps : List Step := [.single { replies := [done] } .begin]
    let refused : ReplyDraft := ⟨.error (.database "disk I/O error"), none⟩
    (∃ report after, (Step.block {} .session steps none []).run {} = (.ok .null, report, after) ∧
      after.engine.connection.closed = true ∧ after.engine.inTransaction = true) ∧
    ∃ fault report after,
      (Step.block {} .engine steps none [refused]).run {} = (.error fault, report, after) ∧
      after.engine.connection.closed = false ∧ after.engine.inTransaction = false := by
  intro done steps refused
  exact ⟨⟨_, _, rfl, rfl, rfl⟩, ⟨_, _, _, rfl, rfl, rfl⟩⟩

end RowMapper.Script
