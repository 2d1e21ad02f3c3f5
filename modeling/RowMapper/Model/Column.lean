import RowMapper.Term

/-!
# Columns

A declared column of a model: its type, its constraints, and the value that stands for it when a
new row has none.
-/
namespace RowMapper.Model

/-- The types of the values of a column. -/
inductive ColumnType where
  | text | integer | real | boolean | bytes
  deriving DecidableEq, Inhabited

/-- The type of a column in SQL; whatever has no type of its own is text. -/
def ColumnType.sql : ColumnType → String
  | .text => "TEXT"
  | .integer => "INTEGER"
  | .real => "REAL"
  | .boolean => "INTEGER"
  | .bytes => "TEXT"

/-- A type as it is printed. -/
def ColumnType.printed : ColumnType → String
  | .text => "<class 'str'>"
  | .integer => "<class 'int'>"
  | .real => "<class 'float'>"
  | .boolean => "<class 'bool'>"
  | .bytes => "<class 'bytes'>"

/-- What stands for the value of a column in a new row that has none: one value for all rows, or one
that is made anew for each.  A class as the one value stands for a new entity of it. -/
inductive Default where
  | fixed (v : Value)
  | fresh (t : Term)
  deriving Inhabited

/-- A column.  `spelling` is the word with which it was declared. -/
structure Column where
  name : String
  spelling : String
  type : ColumnType
  isKey : Bool := false
  nullable : Bool := true
  unique : Bool := false
  /-- What stands for the value in rows that have none; null can be made on purpose. -/
  absent : Option Default := none
  deriving Inhabited

/-- A column as it is printed. -/
def Column.text (c : Column) : String :=
  "<" ++ c.spelling ++ " " ++ c.name ++ (if c.isKey then " pk>" else ">")

end RowMapper.Model
