import RowMapper.Connection
import RowMapper.Term

/-!
# Drafts of replies

A reply of the database as it is written, with terms in the places of values.  It is read when a
statement asks for it, so that its terms mean what they mean at that time.  A reply that cannot be
read refuses the statement.
-/
namespace RowMapper

/-- An answer as it is written. -/
inductive AnswerDraft where
  | rows (rows : List (List (String × Term)))
  | done (insertId affectedRows : Term)
  deriving Inhabited

/-- A reply as it is written. -/
structure ReplyDraft where
  result : Except Refusal AnswerDraft
  inTransaction : Option Bool := none

/-- Reads an answer. -/
def AnswerDraft.eval (scope : Scope) : AnswerDraft → Except Fault Answer
  | .rows table => do return .rows (← table.mapM (Term.evalNamed scope))
  | .done insertId affectedRows => do
    let insertId ← insertId.eval scope
    let affectedRows ← affectedRows.eval scope
    return .done insertId affectedRows

/-- Reads a reply. -/
def ReplyDraft.eval (scope : Scope) (d : ReplyDraft) : Reply where
  result := do (← d.result).eval scope |>.mapError .unreadable
  inTransaction := d.inTransaction

end RowMapper
