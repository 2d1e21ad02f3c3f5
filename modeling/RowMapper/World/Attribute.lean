import RowMapper.Term
import RowMapper.World.Basic

/-!
# Attributes and paths

Every value can be asked for an attribute, though most have none.  A path leads from a variable
inwards, through elements of lists and attributes.  So the variables of a world, the classes under
their keys and the shelf make up a scope, in which terms can be evaluated.
-/
namespace RowMapper.World

open Model (Association AssociationKind Column Default)

/-! ## 1. Attributes -/

/-- A class that was found, or null. -/
def modelOrNull : Option ModelRef → Value
  | some ref => .model ref
  | none => .null

/-- What stands for missing values of a column, as a value: one that is made anew each time is made
by a function. -/
def defaultOf : Option Default → Value
  | none => .null
  | some (.fixed v) => v
  | some (.fresh _) => .other "function" "<function>"

/-- The attributes of a column. -/
def columnAttributes (c : Column) : Dictionary Value := [
  ("name", .str c.name), ("dtype", .other "type" c.type.printed), ("pk", .bool c.isKey),
  ("nullable", .bool c.nullable), ("unique", .bool c.unique), ("default", defaultOf c.absent),
  ("get_default", .other "method" "<bound method>")]

/-- The attributes that only some kinds of association have. -/
def kindAttributes (a : Association) : Dictionary Value :=
  match a.kind with
  | .hasOne => []
  | .hasMany => []
  | .belongsTo key => [("key", key)]
  | .belongsToMany through otherKey key => [
    ("through", through), ("other_key", otherKey), ("key", key),
    ("through_model", modelOrNull a.resolvedThrough)]

/-- The attributes of an association. -/
def associationAttributes (a : Association) : Dictionary Value := [
  ("kind", .str a.kind.name), ("alias", a.name), ("target", a.target),
  ("foreign_key", a.foreignKey), ("target_model", modelOrNull a.resolved)] ++ kindAttributes a

/-- The attributes of a filter. -/
def filterAttributes : Filter Value → Dictionary Value
  | .blank => []
  | .column name => [("column_name", name)]
  | .comparison name operator operand =>
    [("column_name", name), ("op", operator), ("value", operand)]
  | .negation inner => [("filter_expr", inner)]
  | .combined logic parts => [("logic", .str logic.name), ("filters", parts)]

/-- The value under a name, which has to be there. -/
def required (attributes : Dictionary Value) (name : String) : Except Fault Value :=
  match attributes.get? name with
  | some v => .ok v
  | none => .error .noAttribute

/-- An attribute of a class, as the class has it. -/
def classAttribute (w : World) (model : Nat) (name : String) : Except Fault Value :=
  match w.registry.attribute? model name with
  | some found => .ok (w.registry.attributeValue found)
  | none => .error .noAttribute

/-- The attribute of a value. -/
def attributeOf (w : World) (v : Value) (name : String) : Except Fault Value :=
  match w.look v with
  | .entity ref => w.readAttribute ref name
  | .objectAt ref _ => inherited w.registry ref name
  | .model ref => w.classAttribute ref.id name
  | .outcomeAt insertId affectedRows _ =>
    required [("insert_id", insertId), ("affected_rows", affectedRows)] name
  | .filterAt f _ => required (filterAttributes f) name
  | .column ref => required (columnAttributes (w.registry.columnAt ref.index)) name
  | .association ref => required (associationAttributes (w.registry.associationAt ref.index)) name
  | _ => .error .noAttribute

/-! ## 2. Paths -/

/-- The index that a part of a path spells; a minus sign counts from the end. -/
def index? (part : String) : Option Int :=
  match part.toList with
  | '-' :: digits =>
    if digits.all Char.isDigit then (String.ofList digits).toNat?.map fun n => -n else none
  | digits => if digits.all Char.isDigit then part.toNat?.map Int.ofNat else none

/-- The element at an index. -/
def elementAt (items : List Value) (index : Int) : Except Fault Value :=
  let place := if index < 0 then items.length + index else index
  if place < 0 then .error .noIndex
  else
    match items[place.toNat]? with
    | some item => .ok item
    | none => .error .noIndex

/-- The part of a value that one part of a path leads to: a number leads to an element of a list or
tuple, and anything else to an attribute. -/
def partOf (w : World) (v : Value) (part : String) : Except Fault Value :=
  match (w.look v).sequence?, index? part with
  | some items, some index => elementAt items index
  | _, _ => w.attributeOf v part

/-- The value at a path: a variable, and a way inwards. -/
def valueAt (w : World) : List String → Except Fault Value
  | [] => .error .unknownVariable
  | name :: parts =>
    match w.bindings.get? name with
    | some v => parts.foldlM w.partOf v
    | none => .error .unknownVariable

/-- The class under a key. -/
def modelAt (w : World) (key : String) : Except Fault ModelRef := do
  return (w.registry.classAt (← w.registry.find key)).ref

/-- What the names of a term stand for. -/
def scope (w : World) : Scope where
  valueAt := w.valueAt
  modelAt := w.modelAt
  expand := w.expand

end RowMapper.World
