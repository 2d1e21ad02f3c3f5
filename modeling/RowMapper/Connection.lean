import RowMapper.Dictionary
import RowMapper.Fault
import RowMapper.Value.View

/-!
# Connections

The database as the library sees it.  A `Connection` holds the replies that the database will give,
one for each statement, and the trace of what was asked and answered.  A statement for which no
reply is left is answered as by an empty table: a selection yields no rows, and any other statement
affects one row.

The connection keeps track of transactions on its own: a `BEGIN` that succeeds opens one, a
`COMMIT` or `ROLLBACK` that succeeds ends it, and a reply may say otherwise.  Once it is closed it
refuses every statement.
-/
namespace RowMapper

/-- A row: its columns with their values. -/
abbrev Row := Dictionary Value

/-- What a statement yields: rows, or the key of an inserted row and the count of affected rows. -/
inductive Answer where
  | rows (rows : List Row)
  | done (insertId affectedRows : Value)
  deriving Inhabited

/-- Why a statement is not answered: an error of the database, a value that it cannot hold, or an
answer that cannot be read. -/
inductive Refusal where
  | database (message : String)
  | overflow (message : String)
  | unreadable (why : Fault)

/-- The reply to one statement; it may set the flag of the connection. -/
structure Reply where
  result : Except Refusal Answer
  inTransaction : Option Bool := none

/-- What a connection is asked for. -/
inductive Call where
  | statement (text : String) (params : List Value)
  | script (text : String)
  | close
  deriving Inhabited

/-- A call, what was seen of its parameters when it was made, and how it ended. -/
structure Exchange where
  call : Call
  seen : List View := []
  result : Except Refusal Answer

/-- A connection: the replies still to come, its own flag, and what was exchanged so far. -/
structure Connection where
  replies : List Reply := []
  inTransaction : Bool := false
  closed : Bool := false
  trace : List Exchange := []

namespace Connection

/-- The statement that opens a transaction. -/
def beginText : String := "BEGIN"

/-- The statement that ends a transaction and keeps its changes. -/
def commitText : String := "COMMIT"

/-- The statement that ends a transaction and drops its changes. -/
def rollbackText : String := "ROLLBACK"

/-- The reply to a statement when none is left. -/
def unscripted (text : String) : Reply :=
  if "SELECT".isPrefixOf text then ⟨.ok (.rows []), none⟩ else ⟨.ok (.done (.int 1) (.int 1)), none⟩

/-- The refusal of a closed connection. -/
def closedRefusal : Refusal := .database "Cannot operate on a closed database."

/-- The flag after a statement, before its reply has a say. -/
def flagAfter (flag : Bool) (text : String) : Except Refusal Answer → Bool
  | .ok _ =>
    if text = beginText then true
    else if text = commitText || text = rollbackText then false
    else flag
  | .error _ => flag

/-- Notes an exchange. -/
def record (c : Connection) (call : Call) (seen : List View) (result : Except Refusal Answer) :
    Connection :=
  { c with trace := c.trace ++ [⟨call, seen, result⟩] }

/-- Carries out a statement; `seen` is what is seen of its parameters now. -/
def execute (c : Connection) (text : String) (params : List Value) (seen : List View) :
    Except Refusal Answer × Connection :=
  let call := Call.statement text params
  if c.closed then (.error closedRefusal, c.record call seen (.error closedRefusal))
  else
    let reply := c.replies.head?.getD (unscripted text)
    let flag := reply.inTransaction.getD (flagAfter c.inTransaction text reply.result)
    (reply.result,
      { c with replies := c.replies.tail, inTransaction := flag }.record call seen reply.result)

/-- How a script ends: it has no answer to be read. -/
def scriptResult : Except Refusal Answer → Except Refusal Unit
  | .ok _ => .ok ()
  | .error (.unreadable _) => .ok ()
  | .error refusal => .error refusal

/-- Carries out a script of several statements, of which only failure matters. -/
def executeScript (c : Connection) (text : String) : Except Refusal Unit × Connection :=
  if c.closed then (.error closedRefusal, c.record (.script text) [] (.error closedRefusal))
  else
    let reply := c.replies.head?.getD (unscripted text)
    (scriptResult reply.result,
      { c with replies := c.replies.tail }.record (.script text) [] reply.result)

/-- Closes the connection. -/
def close (c : Connection) : Connection :=
  { c with closed := true }.record .close [] (.ok (.done .null .null))

end Connection
end RowMapper
