import RowMapper.Value.Basic

/-!
# Pieces of SQL

A fragment is SQL text with a question mark for every bound value, and those values in the order
of the marks.
-/
namespace RowMapper.Sql

/-- SQL text and the values for its question marks. -/
structure Fragment where
  text : String
  params : List Value
  deriving Inhabited

end RowMapper.Sql
