import RowMapper.Sql.Clause
import RowMapper.Sql.Fragment
import RowMapper.Sql.Identifier
import RowMapper.Value.Conversion

/-!
# Statements

Complete statements over one table.  Names are quoted, values are bound, and the sort and group
clauses are checked.  The parts of a statement are checked in the order in which they are written.
-/
namespace RowMapper.Sql

/-! ## 1. Selection -/

/-- What a selection reads.  A part that counts as false is left out; paging is left out where it
is null. -/
structure Select where
  table : Value
  columns : Value := .null
  filter : Option Fragment := none
  group : Value := .null
  order : Value := .null
  limit : Value := .null
  offset : Value := .null

/-- The quoted names of a list. -/
def quoteAll (names : List Value) : Except Fault (List String) :=
  names.mapM fun name => orFault (quoteIdentifier name)

/-- The column list of a selection, or a star. -/
def columnList (columns : Value) : Except Fault String :=
  if columns.truthy then do return ", ".intercalate (← quoteAll (← columns.elements))
  else .ok "*"

/-- A sort or group clause with its keyword in front. -/
def clausePart (keyword : String) (clause : Value) : Except Fault String :=
  if clause.truthy then
    match clause with
    | .strAt text _ => do return " " ++ keyword ++ " " ++ (← orFault (checkClause keyword text))
    | _ => .error .wrongType
  else .ok ""

/-- The paging part: an offset without a limit comes with the limit -1, which means none. -/
def pagingPart (limit offset : Value) : Except Fault String :=
  match limit, offset with
  | .null, .null => .ok ""
  | .null, offset => do return " LIMIT -1 OFFSET " ++ (← offset.integerText)
  | limit, .null => do return " LIMIT " ++ (← limit.integerText)
  | limit, offset => do
    let size ← limit.integerText
    let start ← offset.integerText
    return " LIMIT " ++ size ++ " OFFSET " ++ start

/-- The WHERE part, left out when the filter says nothing. -/
def wherePart (filter : Option Fragment) : Fragment :=
  match filter with
  | some f => if f.text.isEmpty then ⟨"", []⟩ else ⟨" WHERE " ++ f.text, f.params⟩
  | none => ⟨"", []⟩

/-- The text and the parameters of a selection. -/
def Select.statement (s : Select) : Except Fault Fragment := do
  let table ← orFault (quoteIdentifier s.table)
  let columns ← columnList s.columns
  let filter := wherePart s.filter
  let group ← clausePart "GROUP BY" s.group
  let order ← clausePart "ORDER BY" s.order
  let paging ← pagingPart s.limit s.offset
  return ⟨"SELECT " ++ columns ++ " FROM " ++ table ++ filter.text ++ group ++ order ++ paging,
    filter.params⟩

/-! ## 2. Writing -/

/-- The entries of the data of a write. -/
def dataEntries : Value → Except Fault Entries
  | .mappingAt entries _ => .ok entries
  | _ => .error .noAttribute

/-- Inserts a row; without data, a row of defaults. -/
def insertRow (table data : Value) : Except Fault Fragment := do
  let quotedTable ← orFault (quoteIdentifier table)
  if !data.truthy then return ⟨"INSERT INTO " ++ quotedTable ++ " DEFAULT VALUES", []⟩
  let entries ← dataEntries data
  let names ← quoteAll (entries.map (·.1))
  let marks := ", ".intercalate (entries.map fun _ => "?")
  return ⟨"INSERT INTO " ++ quotedTable ++ " (" ++ ", ".intercalate names ++ ") VALUES (" ++
    marks ++ ")", entries.map (·.2)⟩

/-- Changes the row with the given key. -/
def updateRow (table data keyValue keyColumn : Value) : Except Fault Fragment := do
  if keyValue.isNull then throw (.rejected .updateWithoutKey)
  if !data.truthy then throw (.rejected (.nothingToUpdate table))
  let quotedTable ← orFault (quoteIdentifier table)
  let entries ← dataEntries data
  let names ← quoteAll (entries.map (·.1))
  let settings := ", ".intercalate (names.map (· ++ " = ?"))
  let key ← orFault (quoteIdentifier keyColumn)
  return ⟨"UPDATE " ++ quotedTable ++ " SET " ++ settings ++ " WHERE " ++ key ++ " = ?",
    entries.map (·.2) ++ [keyValue]⟩

/-- Deletes the row with the given key. -/
def deleteRow (table keyValue keyColumn : Value) : Except Fault Fragment := do
  if keyValue.isNull then throw (.rejected .deleteWithoutKey)
  let quotedTable ← orFault (quoteIdentifier table)
  let key ← orFault (quoteIdentifier keyColumn)
  return ⟨"DELETE FROM " ++ quotedTable ++ " WHERE " ++ key ++ " = ?", [keyValue]⟩

end RowMapper.Sql
