/-!
# The lifecycle of an entity

How an entity stands to its row.
-/
namespace RowMapper

/-- How an entity stands to its row: it has none yet, it has one, or the row was deleted. -/
inductive Lifecycle where
  | transient | persistent | deleted
  deriving DecidableEq, Inhabited

/-- The name of a state. -/
def Lifecycle.name : Lifecycle → String
  | .transient => "TRANSIENT"
  | .persistent => "PERSISTENT"
  | .deleted => "DELETED"

end RowMapper
