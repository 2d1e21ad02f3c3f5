import RowMapper.Action
import RowMapper.Connection
import RowMapper.Journal

/-!
# The engine

The engine sends statements over one connection, reports them, and keeps track of whether a
transaction is open.  Its flag and the flag of the connection are two things: a `COMMIT` that fails
leaves the transaction open if the connection says so.
-/
namespace RowMapper

/-- The engine over a connection. -/
structure Engine where
  connection : Connection := {}
  inTransaction : Bool := false
  /-- Whether statements are reported. -/
  logStatements : Bool := false
  /-- Whether the journal wants the records of the lowest level. -/
  debugging : Bool := false
  journal : List LogRecord := []

namespace Engine

/-! ## 1. Statements -/

/-- The part of the library that the engine reports as. -/
def source : String := sourceName "mappify.database"

/-- Adds a record to the journal. -/
def report (level : Level) (source message : String) : Action Engine Unit :=
  modify fun e => { e with journal := e.journal ++ [⟨level, source, message⟩] }

/-- The report of a statement. -/
def statementMessage (o : Observer) (text : String) (params : List Value) : Printed := do
  let start := "[SQL EXECUTE]: " ++ text
  if params.isEmpty then return start
  return start ++ " | [PARAMS]: " ++ (← o.literal (.list params))

/-- Reports a statement, if statements are reported; its parameters have to be printable then. -/
def reportStatement (message : Printed) : Action Engine Unit := do
  if (← get).logStatements then
    report .info source (← Action.ofExcept (message.mapError .ofUnprintable))

/-- Sends a statement over the connection. -/
def send (text : String) (params : List Value) (seen : List View) :
    Action Engine (Except Refusal Answer) := do
  let e ← get
  let (result, connection) := e.connection.execute text params seen
  set { e with connection }
  return result

/-- Runs one statement, with its parameters as an observer sees them now. -/
def query (o : Observer) (text : String) (params : List Value) : Action Engine Answer := do
  reportStatement (statementMessage o text params)
  match ← send text params (params.map o.view) with
  | .ok answer => return answer
  | .error (.overflow message) => throw (.overflow message)
  | .error (.unreadable why) => throw why
  | .error (.database message) =>
    report .error source ("Query failed: " ++ text ++ " | " ++ message)
    throw (.database ("Query failed: " ++ message ++ " [" ++ text ++ "]") (some text) (some params))

/-- Runs a statement without parameters whose answer does not matter. -/
def command (text : String) : Action Engine Unit := do
  let _ ← query .blind text []

/-- Runs a script. -/
def executeScript (text : String) : Action Engine Unit := do
  reportStatement (statementMessage .blind text [])
  let e ← get
  let (result, connection) := e.connection.executeScript text
  set { e with connection }
  match result with
  | .ok _ => return
  | .error (.overflow message) => throw (.overflow message)
  | .error (.unreadable why) => throw why
  | .error (.database message) =>
    throw (.database ("Script failed: " ++ message) (some text) none)

/-- Closes the connection. -/
def close : Action Engine Unit :=
  modify fun e => { e with connection := e.connection.close }

/-! ## 2. Transactions -/

/-- Sets the flag of the engine. -/
def setFlag (active : Bool) : Action Engine Unit :=
  modify fun e => { e with inTransaction := active }

/-- Opens a transaction. -/
def begin : Action Engine Unit := do
  if (← get).inTransaction then throw (.transaction .alreadyActive)
  command Connection.beginText
  setFlag true
  report .debug source "Transaction started"

/-- Ends the transaction and keeps its changes.  After an error of the database the transaction
counts as ended only if the connection has none. -/
def commit : Action Engine Unit := do
  if !(← get).inTransaction then throw (.transaction .nothingToCommit)
  match ← (command Connection.commitText).attempt with
  | .ok _ => setFlag false
  | .error fault =>
    match fault with
    | .database _ _ _ => if !(← get).connection.inTransaction then setFlag false
    | _ => pure ()
    throw fault
  report .debug source "Transaction committed"

/-- Ends the transaction and drops its changes; it counts as ended even if the statement fails. -/
def rollback : Action Engine Unit := do
  if !(← get).inTransaction then throw (.transaction .nothingToRollBack)
  let outcome ← (command Connection.rollbackText).attempt
  setFlag false
  Action.ofExcept outcome
  report .debug source "Transaction rolled back"

/-- Rolls back if a transaction is open. -/
def rollbackIfOpen : Action Engine Unit := do
  if (← get).inTransaction then rollback

/-! ## 3. Blocks -/

/-- Leaves a transaction block after its body: the changes are kept if the body ended well, and
otherwise dropped.  The failure that leaves the block is that of the body or of the commit, unless
rolling back fails too. -/
def leaveTransaction : Except Fault Unit → Action Engine Unit
  | .ok _ => do
    match ← commit.attempt with
    | .ok _ => return
    | .error fault =>
      rollbackIfOpen
      throw fault
  | .error fault => do
    rollbackIfOpen
    throw fault

/-- Runs a body inside a transaction. -/
def transaction (body : Action Engine Unit) : Action Engine Unit := do
  begin
  leaveTransaction (← body.attempt)

/-- Leaves a block that owns the engine: an open transaction is dropped, however the body ended, and
the connection is closed. -/
def leave (outcome : Except Fault Unit) : Action Engine Unit := do
  rollbackIfOpen
  close
  Action.ofExcept outcome

/-- Leaves a block that owns a session: an open transaction is dropped if the body failed, and the
connection is closed. -/
def leaveSession (outcome : Except Fault Unit) : Action Engine Unit := do
  match outcome with
  | .ok _ => pure ()
  | .error _ => rollbackIfOpen
  close
  Action.ofExcept outcome

end Engine
end RowMapper
