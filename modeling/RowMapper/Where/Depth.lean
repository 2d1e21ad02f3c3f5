import RowMapper.Where.Compile

/-!
# The depth of a filter

Reading a filter goes inwards: from a mapping to an entry, from an entry to the mappings in it, and
from a column to its operators.  The depth of a filter is the greatest number of such steps that are
open at one time, down to the last look at a name or a value.
-/
namespace RowMapper.Where

mutual

/-- The depth of the operators on a column. -/
def operatorsDepth : List (Value × Value) → Nat
  | [] => 0
  | (operator, operand) :: rest =>
    let first := if roleOf operator = .negation then columnDepth operand else 1
    max (first + 1) (operatorsDepth rest)

/-- The depth of the value of a column. -/
def columnDepth : Value → Nat
  | .mappingAt operators _ => max 1 (operatorsDepth operators) + 1
  | _ => 2

end

mutual

/-- The depth of the entries of a filter. -/
def entriesDepth : List (Value × Value) → Nat
  | [] => 1
  | (key, value) :: rest => max (entryDepth (roleOf key) value + 1) (entriesDepth rest)

/-- The depth of one entry, given the role of its key. -/
def entryDepth (role : Role) : Value → Nat
  | .mappingAt entries place =>
    match role with
    | .join _ => 1
    | .negation => entriesDepth entries + 1
    | .column => columnDepth (.mappingAt entries place)
  | .listAt items _ =>
    match role with
    | .join _ => itemsDepth items + 1
    | .negation => 2
    | .column => 2
  | .tupleAt items _ =>
    match role with
    | .join _ => itemsDepth items + 1
    | .negation => 2
    | .column => 2
  | _ => 2

/-- The depth of the entries of a group. -/
def itemsDepth : List Value → Nat
  | [] => 1
  | .mappingAt entries _ :: rest => max (entriesDepth entries) (itemsDepth rest)
  | _ :: rest => itemsDepth rest

end

end RowMapper.Where
