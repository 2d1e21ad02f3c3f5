import RowMapper.Sql.Fragment
import RowMapper.Sql.Identifier
import RowMapper.Where.Operator

/-!
# Conditions and their SQL

A `Condition` is what one part of a filter says about a row.  `Condition.sql` writes it with a
question mark for every bound value, and `Condition.params` lists those values in the order of the
marks.  A list of conditions stands for their conjunction.
-/
namespace RowMapper.Where

/-- A statement about one row.  Column names are those between the quotes. -/
inductive Condition where
  /-- The column compared with one value. -/
  | compare (column : String) (comparison : Comparison) (operand : Value)
  /-- The column is null, or is not. -/
  | nullness (column : String) (negated : Bool)
  /-- The column is among the values, or is not. -/
  | member (column : String) (negated : Bool) (operands : List Value)
  /-- The column lies between two values, or does not. -/
  | range (column : String) (negated : Bool) (low high : Value)
  /-- A condition that holds of every row or of none. -/
  | constant (holds : Bool)
  /-- Conjunctions joined by one logic. -/
  | group (logic : Logic) (entries : List (List Condition))
  /-- A conjunction that does not hold. -/
  | negation (conjuncts : List Condition)
  deriving Inhabited

/-- Conditions written side by side. -/
def conjunction (parts : List String) : String := " AND ".intercalate parts

/-- One entry of a group: several conditions get brackets of their own. -/
def groupEntry (parts : List String) : String :=
  match parts with
  | [only] => only
  | _ => "(" ++ conjunction parts ++ ")"

namespace Condition

mutual

/-- The SQL text of a condition. -/
def sql : Condition → String
  | .compare column comparison _ => Sql.quote column ++ " " ++ comparison.token ++ " ?"
  | .nullness column negated => Sql.quote column ++ " " ++ (Operator.nullness negated).token
  | .member column negated operands =>
    Sql.quote column ++ " " ++ (Operator.member negated).token ++ " (" ++
      ", ".intercalate (operands.map fun _ => "?") ++ ")"
  | .range column negated _ _ =>
    Sql.quote column ++ " " ++ (Operator.range negated).token ++ " ? AND ?"
  | .constant holds => if holds then "1 = 1" else "1 = 0"
  | .group logic entries =>
    "(" ++ (" " ++ logic.token ++ " ").intercalate (entriesSql entries) ++ ")"
  | .negation conjuncts => "NOT (" ++ conjunction (allSql conjuncts) ++ ")"

/-- The SQL texts of conditions. -/
def allSql : List Condition → List String
  | [] => []
  | c :: rest => sql c :: allSql rest

/-- The SQL texts of the entries of a group. -/
def entriesSql : List (List Condition) → List String
  | [] => []
  | entry :: rest => groupEntry (allSql entry) :: entriesSql rest

end

mutual

/-- The values bound in a condition, in the order of their marks. -/
def params : Condition → List Value
  | .compare _ _ operand => [operand]
  | .nullness _ _ => []
  | .member _ _ operands => operands
  | .range _ _ low high => [low, high]
  | .constant _ => []
  | .group _ entries => entriesParams entries
  | .negation conjuncts => allParams conjuncts

/-- The values bound in conditions. -/
def allParams : List Condition → List Value
  | [] => []
  | c :: rest => params c ++ allParams rest

/-- The values bound in the entries of a group. -/
def entriesParams : List (List Condition) → List Value
  | [] => []
  | entry :: rest => allParams entry ++ entriesParams rest

end

end Condition

/-- The fragment of a conjunction. -/
def compileConjunction (conditions : List Condition) : Sql.Fragment :=
  ⟨conjunction (Condition.allSql conditions), Condition.allParams conditions⟩

end RowMapper.Where
