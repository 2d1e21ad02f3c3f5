import RowMapper.World.Change
import RowMapper.Sql.Identifier

/-!
# Definitions of tables

The statement that makes the table of a model: its columns with their types and constraints.
-/
namespace RowMapper.World

open Model (Column Mapper Registry)

/-- The constraints of a column, given whether it is the key of the table. -/
def constraints (c : Column) (isKey : Bool) : List String :=
  (if isKey then
    [if c.type = .integer then "PRIMARY KEY AUTOINCREMENT" else "PRIMARY KEY"] else []) ++
  (if c.nullable then [] else ["NOT NULL"]) ++
  (if c.unique && !isKey then ["UNIQUE"] else [])

/-- The definition of a column. -/
def columnDefinition (name : String) (c : Column) (isKey : Bool) : Except Rejection String := do
  let quoted ← Sql.quoteIdentifier (.str name)
  return " ".intercalate (quoted :: c.type.sql :: constraints c isKey)

/-- The definitions of all columns. -/
def columnDefinitions (key : String) :
    List (String × Column) → Except Rejection (List String)
  | [] => .ok []
  | (name, c) :: rest => do
    let first ← columnDefinition name c (name == key)
    let others ← columnDefinitions key rest
    return first :: others

/-- The statement that makes the table of a model. -/
def tableDefinition (r : Registry) (m : Mapper) : Except Rejection String := do
  let columns ← columnDefinitions m.key (r.columnsOf m)
  let table ← Sql.quoteIdentifier m.tableName
  return "CREATE TABLE IF NOT EXISTS " ++ table ++ " (" ++ ", ".intercalate columns ++ ");"

/-- Makes the table of a model, perhaps dropping it first. -/
def createTable (dropFirst : Bool) (model : Nat) : Action World Unit := do
  let mapper ← reading (·.mapper model)
  if dropFirst then
    let table ← Action.ofExcept (orFault (Sql.quoteIdentifier mapper.tableName))
    discard (query ⟨"DROP TABLE IF EXISTS " ++ table, []⟩)
  let statement ← reading fun w => orFault (tableDefinition w.registry mapper)
  discard (query ⟨statement, []⟩)
  debug "mappify.generator" fun w => (w.display mapper.tableName).map ("Created table " ++ ·)

/-- Makes the tables of models in order. -/
def createTables (dropFirst : Bool) (models : List Nat) : Action World Unit :=
  models.forM (createTable dropFirst)

end RowMapper.World
