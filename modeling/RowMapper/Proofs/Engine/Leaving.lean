import RowMapper.Proofs.Engine.Block

/-!
# How a block that owns the connection is left

A block that owns the engine drops the transaction that its body has left open, and closes the
connection.  A block that owns a session does the same after a body that failed; after a body that
ended well it only closes, and the flag of the engine stays as the body has left it.

`OwnerLeft` starts from the engine as the body leaves it.  It promises the closing unless a
`ROLLBACK` was refused before it.
-/
namespace RowMapper.Engine

open Connection (rollbackText)

/-- The call that closes the connection. -/
def closing : Exchange := ⟨.close, [], .ok (.done .null .null)⟩

/-- How a block that owns the connection is left after a body that ended in a given way, from the
engine `e` to the engine `e'`, with the exchanges that are made on leaving; `drops` says whether an
open transaction is dropped. -/
structure OwnerLeft (drops : Bool) (outcome : Except Fault Unit) (e : Engine)
    (result : Except Fault Unit) (e' : Engine) (sent : List Exchange) : Prop where
  trace : e'.connection.trace = e.connection.trace ++ sent
  /-- A transaction is left behind only where none is dropped. -/
  flag : e'.inTransaction = (!drops && e.inTransaction)
  rollback_iff : (∃ reply, asked rollbackText reply ∈ sent) ↔ drops = true ∧ e.inTransaction = true
  /-- Unless rolling back fails, the connection is closed at last, and the block ends as its body
  did. -/
  closed : (∀ refusal, asked rollbackText (.error refusal) ∉ sent) →
    e'.connection.closed = true ∧ sent.getLast? = some closing ∧ result = outcome

/-- The closing of a connection is not a rollback. -/
theorem asked_ne_closing (text : String) (reply : Except Refusal Answer) :
    asked text reply ≠ closing :=
  fun h => nomatch congrArg Exchange.call h

section

variable {outcome : Except Fault Unit} {e e₁ : Engine}

/-- Closing, and ending as the body did. -/
theorem close_runOn (outcome : Except Fault Unit) (e : Engine) :
    (do close; Action.ofExcept outcome : Action Engine Unit).runOn e =
      (outcome, { e with connection := e.connection.close }) := by
  cases outcome <;> rfl

/-- Where no transaction has to be dropped, the connection is closed at once. -/
theorem OwnerLeft.of_kept {drops : Bool} (h : drops = true → e.inTransaction = false) :
    OwnerLeft drops outcome e outcome { e with connection := e.connection.close } [closing] where
  trace := rfl
  flag := by
    cases drops with
    | false => rfl
    | true => exact h rfl
  rollback_iff := by
    have hnone (reply : Except Refusal Answer) : asked rollbackText reply ∉ [closing] :=
      fun hmem => asked_ne_closing _ _ (List.mem_singleton.mp hmem)
    refine ⟨fun ⟨reply, hmem⟩ => absurd hmem (hnone reply), fun ⟨hdrops, hopen⟩ => ?_⟩
    rw [h hdrops] at hopen
    cases hopen
  closed _ := ⟨rfl, rfl, rfl⟩

/-- The transaction has been dropped, and then the connection is closed. -/
theorem OwnerLeft.of_dropped {answer : Answer} (hopen : e.inTransaction = true)
    (htrace : e₁.connection.trace = e.connection.trace ++ [asked rollbackText (.ok answer)])
    (hflag : e₁.inTransaction = false) :
    OwnerLeft true outcome e outcome { e₁ with connection := e₁.connection.close }
      [asked rollbackText (.ok answer), closing] where
  trace := by
    show e₁.connection.trace ++ [closing] = _
    rw [htrace, List.append_assoc]
    rfl
  flag := hflag
  rollback_iff := ⟨fun _ => ⟨rfl, hopen⟩, fun _ => ⟨_, List.mem_cons_self⟩⟩
  closed _ := ⟨rfl, rfl, rfl⟩

/-- The transaction could not be dropped. -/
theorem OwnerLeft.of_refused {refusal : Refusal} {result : Except Fault Unit}
    (hopen : e.inTransaction = true)
    (htrace : e₁.connection.trace = e.connection.trace ++ [asked rollbackText (.error refusal)])
    (hflag : e₁.inTransaction = false) :
    OwnerLeft true outcome e result e₁ [asked rollbackText (.error refusal)] where
  trace := htrace
  flag := hflag
  rollback_iff := ⟨fun _ => ⟨rfl, hopen⟩, fun _ => ⟨_, List.mem_cons_self⟩⟩
  closed hnone := absurd (List.mem_singleton_self _) (hnone refusal)

end

/-- A block that owns the engine. -/
theorem leave_left (outcome : Except Fault Unit) (e : Engine) :
    ∃ result e' sent, (leave outcome).runOn e = (result, e') ∧
      OwnerLeft true outcome e result e' sent := by
  cases hflag : e.inTransaction with
  | false =>
    refine ⟨outcome, _, [closing], ?_, .of_kept fun _ => hflag⟩
    rw [leave, Action.runOn_bind_ok (rollback_closed hflag), close_runOn]
  | true =>
    obtain ⟨reply, e₁, hrollback, htrace, hclosed⟩ := rollback_open hflag
    cases reply with
    | ok answer =>
      refine ⟨outcome, _, _, ?_, .of_dropped hflag htrace hclosed⟩
      rw [leave, Action.runOn_bind_ok hrollback, close_runOn]
    | error refusal =>
      refine ⟨.error (refusalFault rollbackText refusal), e₁, _, ?_,
        .of_refused hflag htrace hclosed⟩
      rw [leave, Action.runOn_bind_error hrollback]

/-- A block that owns a session, after a body that ended well. -/
theorem leaveSession_ok (e : Engine) :
    (leaveSession (.ok ())).runOn e = (.ok (), { e with connection := e.connection.close }) :=
  rfl

end RowMapper.Engine
