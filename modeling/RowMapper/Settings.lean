import RowMapper.Fault
import RowMapper.Journal
import RowMapper.Number.Numeral
import RowMapper.Text.Blank
import RowMapper.Text.Case

/-!
# Settings

What is read from the environment: the database to open, how long to wait for it, the level of the
journal, and whether statements are reported.
-/
namespace RowMapper

/-- The settings of a run. -/
structure Settings where
  path : String
  timeout : Binary64
  logLevel : String
  logStatements : Bool
  deriving Inhabited

namespace Settings

/-- Whether a text says yes, in any case and with blanks around it. -/
def saysYes (text : String) : Bool :=
  ["1", "true", "yes", "on"].contains (Text.lower (Text.trim text))

/-- A variable of the environment, or what stands for it when it is unset. -/
def variableOr (environment : List (String × String)) (name absent : String) : String :=
  (environment.lookup name).getD absent

/-- Reads the settings; a timeout that is no number is a fault. -/
def ofEnvironment (environment : List (String × String)) : Except Fault Settings :=
  let timeout := variableOr environment "MAPPIFY_DB_TIMEOUT" "5.0"
  match Numeral.float? timeout with
  | none => .error (.badValue (.notFloat (Text.quoted timeout)))
  | some seconds => .ok {
      path := variableOr environment "MAPPIFY_DB_PATH" ":memory:"
      timeout := seconds
      logLevel := Text.upper (variableOr environment "MAPPIFY_LOG_LEVEL" "INFO")
      logStatements := saysYes (variableOr environment "MAPPIFY_LOG_SQL" "true") }

/-- The level of the journal; a name that is no level is a fault. -/
def effectiveLevel (s : Settings) : Except Fault Level :=
  match Level.ofName? s.logLevel with
  | some level => .ok level
  | none => .error (.badValue (.unknownLevel s.logLevel))

end Settings
end RowMapper
