import RowMapper.Text.Case
import RowMapper.Value.Conversion

/-!
# Filter expressions

An `Expression` is what a caller writes to put a filter together.  Building it gives a `Filter`, in
which groups of one logic are flattened into each other; and a filter is turned into the mapping
that the filter language reads.  The filters inside a filter are values, like its operands.
-/
namespace RowMapper

open Where (Logic Comparison)

/-! ## 1. Built filters -/

namespace Filter

/-- The parts that a filter adds to a group: those of a group of the same logic, else itself. -/
def partsUnder (logic : Logic) (f : Filter Value) : List Value :=
  match f with
  | .combined inner (.tupleAt parts _) => if inner = logic then parts else [.filter f]
  | _ => [.filter f]

/-- A group of filters, flattened. -/
def combine (logic : Logic) (filters : List (Filter Value)) : Filter Value :=
  .combined logic (.tuple (filters.flatMap (partsUnder logic)))

/-- A mapping with one entry. -/
def entry (key value : Value) : Except Fault Value :=
  if key.hashable then .ok (.mapping [(key, value)]) else .error .wrongType

mutual

/-- A filter as a mapping of the filter language; a value that is no filter has none. -/
def toWhere : Value → Except Fault Value
  | .filterAt .blank _ => .error .notImplemented
  | .filterAt (.comparison name operator operand) _ => do entry name (← entry operator operand)
  | .filterAt (.negation inner) _ => do entry (.str "not") (← toWhere inner)
  | .filterAt (.combined logic (.tupleAt parts _)) _ => do
    entry (.str logic.name) (.list (← toWheres parts))
  | _ => .error .noAttribute

/-- The mappings of filters. -/
def toWheres : List Value → Except Fault (List Value)
  | [] => .ok []
  | f :: rest => do
    let first ← toWhere f
    let others ← toWheres rest
    return first :: others

end

end Filter

/-! ## 2. Expressions -/

/-- What a caller writes to put a filter together, with columns and operands of a type `α`. -/
inductive Expression (α : Type) where
  /-- An operator or a method on a column. -/
  | call (column : α) (method : String) (arguments : List α)
  /-- An operator with the column on its right. -/
  | reflected (operand : α) (operator : String) (column : α)
  | column (name : α)
  | blank
  | comparison (column operator operand : α)
  | both (logic : Logic) (left right : Expression α)
  | invert (inner : Expression α)
  | combine (logic : α) (parts : List (Expression α))
  deriving Inhabited

/-- The operators that compare a column with one value. -/
def comparisonOf? : String → Option Comparison
  | "==" => some .eq
  | "!=" => some .ne
  | "<" => some .lt
  | "<=" => some .lte
  | ">" => some .gt
  | ">=" => some .gte
  | _ => none

/-- The comparison that says the same with its sides exchanged. -/
def swapSides : Comparison → Comparison
  | .lt => .gt
  | .gt => .lt
  | .lte => .gte
  | .gte => .lte
  | c => c

/-- The word of the filter language for a comparison. -/
def comparisonWord : Comparison → String
  | .eq => "eq"
  | .ne => "ne"
  | .gt => "gt"
  | .lt => "lt"
  | .gte => "gte"
  | .lte => "lte"
  | .like => "like"
  | .notLike => "notLike"

/-- A comparison of a column. -/
def compareColumn (column : Value) (comparison : Comparison) (operand : Value) :
    Filter Value :=
  .comparison column (.str (comparisonWord comparison)) operand

/-- The filter of a method on a column. -/
def callMethod (column : Value) (method : String) (arguments : List Value) :
    Except Fault (Filter Value) :=
  match comparisonOf? method, arguments with
  | some comparison, [operand] => .ok (compareColumn column comparison operand)
  | some _, _ => .error .wrongType
  | none, arguments =>
    let word (w : String) (operand : Value) : Filter Value := .comparison column (.str w) operand
    match method, arguments with
    | "in_", [values] => do return word "in" (.list (← values.elements))
    | "not_in", [values] => do return word "notIn" (.list (← values.elements))
    | "like", [pattern] => .ok (word "like" pattern)
    | "not_like", [pattern] => .ok (word "notLike" pattern)
    | "is_null", [] => .ok (word "isNull" (.bool true))
    | "is_not_null", [] => .ok (word "isNotNull" (.bool true))
    | "between", [low, high] => .ok (word "between" (.list [low, high]))
    | "not_between", [low, high] => .ok (word "notBetween" (.list [low, high]))
    | method, _ =>
      if ["in_", "not_in", "like", "not_like", "is_null", "is_not_null", "between",
          "not_between"].contains method
      then .error .wrongType else .error .noAttribute

/-- The filter of an operator with the column on its right.  A column on the left has the first
word. -/
def compareReflected (operand : Value) (comparison : Comparison) (column : Value) :
    Filter Value :=
  match operand with
  | .filterAt (.column left) _ => compareColumn left comparison (.filter (.column column))
  | operand => compareColumn column (swapSides comparison) operand

/-- The logic that a word in any case names. -/
def logicOf : Value → Except Fault Logic
  | .strAt word _ =>
    match Text.lower word with
    | "and" => .ok .all
    | "or" => .ok .any
    | _ => .error (.badValue .unknownLogic)
  | .bytesAt _ _ => .error (.badValue .unknownLogic)
  | _ => .error .noAttribute

mutual

/-- Builds the filter that an expression describes. -/
def Expression.build : Expression Value → Except Fault (Filter Value)
  | .call column method arguments => callMethod column method arguments
  | .reflected operand operator column =>
    match comparisonOf? operator with
    | some comparison => .ok (compareReflected operand comparison column)
    | none => .error .wrongType
  | .column name => .ok (.column name)
  | .blank => .ok .blank
  | .comparison column operator operand => .ok (.comparison column operator operand)
  | .both logic left right => do
    let first ← left.build
    let second ← right.build
    if first.isExpression then return .combine logic [first, second] else throw .wrongType
  | .invert inner => do
    let filter ← inner.build
    if filter.isExpression then return .negation (.filter filter) else throw .wrongType
  | .combine logic parts => do
    let filters ← buildAll parts
    return .combine (← logicOf logic) filters

/-- Builds filters one after another. -/
def buildAll : List (Expression Value) → Except Fault (List (Filter Value))
  | [] => .ok []
  | e :: rest => do
    let first ← e.build
    let others ← buildAll rest
    return first :: others

end

end RowMapper
