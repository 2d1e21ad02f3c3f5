import RowMapper.Where.Operator

/-!
# Filters

A filter can be put together from columns, comparisons and the connectives.  It is a tree; here is
one node of it, whose columns, operands and inner filters are of a type `α`.
-/
namespace RowMapper

open Where (Logic)

/-- One node of a built filter.  A bare column is no filter yet, but it can stand where one is
expected until the filter is turned into a mapping; the same holds of the empty filter `blank`.
The parts of a group are one collection. -/
inductive Filter (α : Type) where
  | blank
  | column (name : α)
  | comparison (column operator operand : α)
  | negation (inner : α)
  | combined (logic : Logic) (parts : α)
  deriving Inhabited

namespace Filter

variable {α : Type}

/-- The name of the type of a filter. -/
def kind : Filter α → String
  | .blank => "FilterExpression"
  | .column _ => "ColumnFilter"
  | .comparison _ _ _ => "ComparisonFilter"
  | .negation _ => "NotFilter"
  | .combined _ _ => "CombinedFilter"

/-- Whether the filter can be combined with others. -/
def isExpression : Filter α → Bool
  | .column _ => false
  | _ => true

end Filter
end RowMapper
