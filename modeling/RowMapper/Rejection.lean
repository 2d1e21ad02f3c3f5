import RowMapper.Value.Literal

/-!
# Rejections

Why an input is refused before or instead of a statement.  Each cause is a constructor that holds
what the message shows; the wording is in `Rejection.message` alone.
-/
namespace RowMapper

/-- Why an input is refused. -/
inductive Rejection where
  /-- A name that may not stand between double quotes. -/
  | unsafeIdentifier (identifier : Value)
  /-- A sort or group clause beyond names, directions and commas. -/
  | unsafeClause (clauseKind clause : String)
  /-- A filter that is no mapping. -/
  | whereNotMapping (kind : String)
  | groupNotList (logic : String)
  | groupEntry (logic : String) (entry : Value)
  | negationNotMapping
  | noOperators (column : Value)
  | columnIsList (column : Value)
  | unknownOperator (operator column : Value)
  | logicAsOperator (logic : String) (column : Value)
  | notSingle (operator : String) (column operand : Value)
  | comparedWithNull (operator : String) (column : Value)
  | notList (operator : String) (column operand : Value)
  | notTwo (operator : String) (column operand : Value)
  | notTrue (operator : String) (column operand : Value)
  /-- A write without a key for its WHERE clause. -/
  | updateWithoutKey
  | deleteWithoutKey
  | nothingToUpdate (table : Value)
  /-- A finder that needs a filter or an identifier and has none. -/
  | emptyWhere (model : String)
  | missingId (model : String)
  /-- A class with several primary keys. -/
  | severalKeys (model : String) (columns : List String)
  /-- A relation of an entity that has no key yet. -/
  | unsavedOwner (relation : Value) (owner : EntityRef)
  /-- A filter text that is not a JSON object. -/
  | whereNotJson (problem : String)
  | whereNotObject

/-- A list of names as a literal. -/
def nameList (names : List String) : String :=
  "[" ++ ", ".intercalate (names.map Text.quoted) ++ "]"

/-- The wording of a rejection, given how values are printed.  The values in it are printed in the
order in which they stand there. -/
def Rejection.message (literal : Value → Printed) (r : Rejection) : Printed := do
  let shown := Value.displayBy literal
  match r with
  | .unsafeIdentifier identifier => return "Unsafe SQL identifier: " ++ (← literal identifier)
  | .unsafeClause clauseKind clause =>
    return "Unsafe " ++ clauseKind ++ " clause: " ++ Text.quoted clause
  | .whereNotMapping kind => return "where must be a mapping, got " ++ kind
  | .groupNotList logic => return "'" ++ logic ++ "' expects a non-empty list of conditions"
  | .groupEntry logic entry =>
    return "Every '" ++ logic ++ "' entry must be a non-empty mapping, got " ++ (← literal entry)
  | .negationNotMapping => return "'not' expects a non-empty mapping of conditions"
  | .noOperators column =>
    return "Empty operator mapping for column '" ++ (← shown column) ++ "'"
  | .columnIsList column =>
    return "Column '" ++ (← shown column) ++
      "' got a list; use \x7b'in': [...]\x7d or \x7b'between': [a, b]\x7d"
  | .unknownOperator operator column =>
    return "Unknown operator '" ++ (← shown operator) ++ "' for column '" ++ (← shown column) ++ "'"
  | .logicAsOperator logic column =>
    return "'" ++ logic ++ "' cannot be used as a column operator ('" ++ (← shown column) ++
      "'); group conditions with a top-level '" ++ logic ++ "' list instead"
  | .notSingle operator column operand =>
    return "'" ++ operator ++ "' on '" ++ (← shown column) ++ "' expects a single value, got " ++
      (← literal operand)
  | .comparedWithNull operator column =>
    return "'" ++ operator ++ "' on '" ++ (← shown column) ++ "' cannot compare with None"
  | .notList operator column operand =>
    return "'" ++ operator ++ "' on '" ++ (← shown column) ++ "' expects a list, got " ++
      (← literal operand)
  | .notTwo operator column operand =>
    return "'" ++ operator ++ "' on '" ++ (← shown column) ++
      "' expects exactly two values, got " ++ (← literal operand)
  | .notTrue operator column operand =>
    return "'" ++ operator ++ "' on '" ++ (← shown column) ++ "' only accepts True, got " ++
      (← literal operand)
  | .updateWithoutKey => return "UPDATE needs a primary key value for its WHERE clause"
  | .deleteWithoutKey => return "DELETE needs a primary key value for its WHERE clause"
  | .nothingToUpdate table => return "Nothing to update in " ++ (← shown table)
  | .emptyWhere model => return model ++ ".find_one requires a non-empty 'where'"
  | .missingId model => return model ++ ".find_by_id requires an id"
  | .severalKeys model columns =>
    return "Class " ++ model ++ " declares more than one primary key: " ++ nameList columns
  | .unsavedOwner relation owner =>
    return "Cannot load '" ++ (← shown relation) ++ "' of unsaved " ++ (← literal (.entity owner))
  | .whereNotJson problem => return "'where' is not valid JSON: " ++ problem
  | .whereNotObject => return "'where' must be a JSON object"

end RowMapper
