import RowMapper.Engine
import RowMapper.Parameters
import RowMapper.Settings

/-!
# Opening an engine

The caller may name the database, the time to wait for it, and whether statements are reported;
what is not given comes from the settings.  The connection commits every statement by itself unless
a transaction is open, and may be used by several threads.
-/
namespace RowMapper

/-- What an engine is opened with. -/
structure Opening where
  path : Value
  timeout : Value
  /-- Whether statements are reported; any value that counts as true says yes. -/
  logStatements : Value
  /-- The isolation level of transactions that the connection opens by itself: it opens none. -/
  isolation : Value := .null
  /-- Whether the connection insists on the thread that opened it. -/
  oneThread : Bool := false
  deriving Inhabited

namespace Opening

/-- The arguments, which may all be left out. -/
def arguments : Parameters where
  optional := [("db_path", .null), ("timeout", .null), ("log_sql", .null)]

/-- The opening that the arguments ask for. -/
def ofArguments (s : Settings) (given : Value) : Except Fault Opening := do
  let .mappingAt entries _ := given | throw .wrongType
  let some named := Entries.named? entries | throw .wrongType
  let bound ← arguments.bind named
  let path := Parameters.valueIn bound "db_path"
  let timeout := Parameters.valueIn bound "timeout"
  let logStatements := Parameters.valueIn bound "log_sql"
  return {
    path := if path.truthy then path else .str s.path
    timeout := if timeout.isNull then .float s.timeout else timeout
    logStatements := if logStatements.isNull then .bool s.logStatements else logStatements }

/-- The path as it stands in messages. -/
def pathText (o : Opening) : Except Fault String :=
  (o.path.displayBy Value.plainLiteral).mapError .ofUnprintable

/-- Opens the engine, unless the database refuses with the given message. -/
def connect (o : Opening) (refusal : Option String) : Action Engine Unit := do
  match refusal with
  | some message =>
    let text := "error connecting to " ++ (← Action.ofExcept o.pathText) ++ ": " ++ message
    Engine.report .error Engine.source text
    throw (.database text none none)
  | none =>
    set { (← get) with logStatements := o.logStatements.truthy }
    Engine.report .debug Engine.source ("Connected to " ++ (← Action.ofExcept o.pathText))

end Opening
end RowMapper
