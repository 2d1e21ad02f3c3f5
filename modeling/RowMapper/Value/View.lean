import RowMapper.Entity.Lifecycle
import RowMapper.Value.Literal

/-!
# Views of values

What can be seen of a value from outside, at one moment: an entity is shown with its state and with
everything set on it, and so on inwards.  An entity that is met again inside itself is only named.

What is set on an entity depends on the world that it lives in.  An `Observer` is how values look in
one world.
-/
namespace RowMapper

/-- A value as it is seen from outside. -/
inductive View where
  | null
  | bool (b : Bool)
  | int (n : Int)
  | float (x : Binary64)
  | str (s : String)
  | bytes (bytes : List UInt8)
  | list (items : List View)
  | tuple (items : List View)
  | mapping (entries : List (View × View))
  | entity (model : String) (state : Lifecycle) (bound : Bool) (attributes : List (View × View))
  /-- An entity inside itself. -/
  | again (model : String)
  | outcome (insertId affectedRows : View) (text : String)
  | other (kind : String)
  deriving Inhabited

/-- A printed form, or nothing where there is none. -/
def Printed.orNothing (p : Printed) : String :=
  match p with
  | .ok text => text
  | .error _ => ""

namespace Value

variable (literal : Value → Printed) (shown : EntityRef → View)

mutual

/-- The view of a value, given how values are printed and the views of entities. -/
def view : Value → View
  | .null => .null
  | .bool b => .bool b
  | .intAt n _ => .int n
  | .floatAt x _ => .float x
  | .strAt s _ => .str s
  | .bytesAt b _ => .bytes b
  | .listAt items _ => .list (views items)
  | .tupleAt items _ => .tuple (views items)
  | .mappingAt entries _ => .mapping (entryViews entries)
  | .outcomeAt insertId affectedRows _ =>
    .outcome (view insertId) (view affectedRows)
      (literal (.outcome insertId affectedRows)).orNothing
  | .filterAt f _ => .other f.kind
  | .objectAt ref _ => .other ref.name
  | .model ref => .other (kind (.model ref))
  | .entity ref => shown ref
  | .column ref => .other ref.word
  | .association ref => .other ref.word
  | .other kind _ => .other kind
  | .shared number => .other (kind (.shared number))

/-- The views of values. -/
def views : List Value → List View
  | [] => []
  | v :: rest => view v :: views rest

/-- The views of the entries of a mapping. -/
def entryViews : List (Value × Value) → List (View × View)
  | [] => []
  | (k, v) :: rest => (view k, view v) :: entryViews rest

end

end Value

/-- How values look at one moment: how they are printed, and what is seen of them. -/
structure Observer where
  literal : Value → Printed
  view : Value → View

/-- The observer for whom there is nothing behind the reference of an entity. -/
def Observer.blind : Observer where
  literal := Value.plainLiteral
  view := Value.view Value.plainLiteral fun ref => .again ref.model

end RowMapper
