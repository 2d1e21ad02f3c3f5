import RowMapper.Dictionary
import RowMapper.Filter.Expression

/-!
# Terms

A value as it is written down to be made later, perhaps more than once.  Besides plain values a term
can name a variable, the class under a key, or a filter expression, also inside a collection.  A
`Scope` says what the names stand for.

A term can be evaluated in two ways.  As something to be held, the value at a variable stays the
very same value, which may lie on a shelf.  As something to be read, all of it is looked up.
-/
namespace RowMapper

/-- A value as it is written. -/
inductive Term where
  | plain (v : Value)
  | list (items : List Term)
  | tuple (items : List Term)
  | mapping (entries : List (Term × Term))
  /-- A variable, and the way inwards from it. -/
  | path (names : List String)
  | model (key : String)
  | filter (e : Expression Term)
  deriving Inhabited

/-- What names stand for, and what lies on the shelf. -/
structure Scope where
  valueAt : List String → Except Fault Value
  modelAt : String → Except Fault ModelRef
  expand : Value → Value

namespace Scope

/-- The scope in which there are no names. -/
def empty : Scope where
  valueAt _ := .error .unknownVariable
  modelAt _ := .error .unknownModel
  expand v := v

end Scope

namespace Term

variable (scope : Scope)

/-- Writes an entry of a mapping, whose key has to be one. -/
def addEntry {α : Type} (entries : List (Value × α)) (key : Value) (value : α) :
    Except Fault (List (Value × α)) :=
  if key.hashable then .ok (Entries.insert entries key value) else .error .wrongType

mutual

/-- The value of a term, to be held. -/
def eval : Term → Except Fault Value
  | .plain v => .ok v
  | .list items => do return .list (← evalAll items)
  | .tuple items => do return .tuple (← evalAll items)
  | .mapping entries => do return .mapping (← evalEntries entries [])
  | .path names => scope.valueAt names
  | .model key => do return .model (← scope.modelAt key)
  | .filter e => do return .filter (← (← evalExpression e).build)

/-- The values of terms. -/
def evalAll : List Term → Except Fault (List Value)
  | [] => .ok []
  | t :: rest => do
    let first ← eval t
    let others ← evalAll rest
    return first :: others

/-- The entries of a mapping, written one after another. -/
def evalEntries : List (Term × Term) → Entries → Except Fault Entries
  | [], entries => .ok entries
  | (key, value) :: rest, entries => do
    let key ← eval key
    let value ← eval value
    evalEntries rest (← addEntry entries (scope.expand key) value)

/-- The columns and operands of a filter expression, as something to be read. -/
def evalExpression : Expression Term → Except Fault (Expression Value)
  | .call column method arguments => do
    let column ← eval column
    let arguments ← evalAll arguments
    return .call (scope.expand column) method (arguments.map scope.expand)
  | .reflected operand operator column => do
    let operand ← eval operand
    let column ← eval column
    return .reflected (scope.expand operand) operator (scope.expand column)
  | .column name => do return .column (scope.expand (← eval name))
  | .blank => .ok .blank
  | .comparison column operator operand => do
    let column ← eval column
    let operator ← eval operator
    let operand ← eval operand
    return .comparison (scope.expand column) (scope.expand operator) (scope.expand operand)
  | .both logic left right => do
    let left ← evalExpression left
    let right ← evalExpression right
    return .both logic left right
  | .invert inner => do return .invert (← evalExpression inner)
  | .combine logic parts => do
    let logic ← eval logic
    return .combine (scope.expand logic) (← evalExpressions parts)

/-- Filter expressions one after another. -/
def evalExpressions : List (Expression Term) → Except Fault (List (Expression Value))
  | [] => .ok []
  | e :: rest => do
    let first ← evalExpression e
    let others ← evalExpressions rest
    return first :: others

end

/-- The value of a term, to be read. -/
def read (t : Term) : Except Fault Value := do return scope.expand (← t.eval scope)

/-- The values of terms under names, to be held. -/
def evalNamed : List (String × Term) → Except Fault (Dictionary Value)
  | [] => .ok []
  | (name, t) :: rest => do
    let value ← t.eval scope
    let others ← evalNamed rest
    return (name, value) :: others

/-- The values of terms under names, to be read. -/
def readNamed (terms : List (String × Term)) : Except Fault (Dictionary Value) := do
  return (← evalNamed scope terms).map fun entry => (entry.1, scope.expand entry.2)

end Term
end RowMapper
