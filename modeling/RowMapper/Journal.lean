/-!
# The journal

What the library reports while it works: records with a level, the name of the part that reports,
and a message.
-/
namespace RowMapper

/-- How serious a record is. -/
inductive Level where
  | debug | info | warning | error | critical | unset
  deriving DecidableEq, Inhabited

/-- The name of a level. -/
def Level.name : Level → String
  | .debug => "DEBUG"
  | .info => "INFO"
  | .warning => "WARNING"
  | .error => "ERROR"
  | .critical => "CRITICAL"
  | .unset => "NOTSET"

/-- The level of a name; two levels have a second name. -/
def Level.ofName? : String → Option Level
  | "DEBUG" => some .debug
  | "INFO" => some .info
  | "WARNING" => some .warning
  | "WARN" => some .warning
  | "ERROR" => some .error
  | "CRITICAL" => some .critical
  | "FATAL" => some .critical
  | "NOTSET" => some .unset
  | _ => none

/-- One report. -/
structure LogRecord where
  level : Level
  source : String
  message : String
  deriving Inhabited

/-- The name that all sources share. -/
def rootSource : String := "mappify"

/-- The name of a source: every source lies below the root. -/
def sourceName (name : String) : String :=
  if name == rootSource || (rootSource ++ ".").isPrefixOf name then name
  else rootSource ++ "." ++ name

end RowMapper
