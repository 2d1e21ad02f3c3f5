import RowMapper.Engine
import RowMapper.Model.Registry
import RowMapper.ReplyDraft
import RowMapper.Shelf

/-!
# The world of a session

Everything that operations on entities read and change: the engine, the registry of classes, the
entities, the shelf with the values that entities and their users share, the variables under which
the users keep values, and the replies that the connection will give.  Entities are numbered in the
order in which they were made and are never taken away, so that a reference stays good.

What a place of the world holds may be the number of a value on the shelf.  `look` finds the value,
and `expand` finds its parts too.
-/
namespace RowMapper

open Model (Association Column Mapper Registry)

/-- An entity: its class, its state, the session it is bound to, and everything set on it.  What is
set has a text as its name, but for associations that go by another key. -/
structure Entity where
  model : ModelRef
  state : Lifecycle := .transient
  session : Option String := none
  attributes : Entries := []
  deriving Inhabited

/-- The engine, the classes, the entities, the shelf, the variables, and the replies to come. -/
structure World where
  engine : Engine := {}
  registry : Registry := .initial
  entities : List Entity := []
  shelf : Shelf := []
  bindings : Dictionary Value := []
  replies : List ReplyDraft := []

namespace World

/-! ## 1. Values -/

/-- A value looked up on the shelf; its parts may still lie there. -/
def look (w : World) (v : Value) : Value := w.shelf.look v

/-- A value with all its parts looked up on the shelf. -/
def expand (w : World) (v : Value) : Value := w.shelf.expand v

/-! ## 2. Classes -/

/-- The mapper of a class, with the name of its table looked up. -/
def mapper (w : World) (model : Nat) : Except Fault Mapper := do
  let m ← w.registry.mapperOf model
  return { m with tableName := w.expand m.tableName }

/-- An association, with what it was declared with looked up. -/
def association (w : World) (index : Nat) : Association :=
  (w.registry.associationAt index).map w.expand

/-- The name of a class. -/
def modelName (w : World) (model : Nat) : String := (w.registry.classAt model).ref.name

/-! ## 3. Entities -/

/-- The entity of a reference. -/
def entityAt (w : World) (ref : EntityRef) : Entity := w.entities[ref.id]?.getD default

/-- The mapper of the class of an entity. -/
def mapperOf (w : World) (ref : EntityRef) : Except Fault Mapper :=
  w.mapper (w.entityAt ref).model.id

/-- What an instance of a class has for a name of which only its class says something: the value of
a plain attribute, and null for a column or an association. -/
def inherited (r : Registry) (model : ModelRef) (name : String) : Except Fault Value :=
  match r.attribute? model.id name with
  | some (.plain v) => .ok v
  | some (.operation _) => .ok (.other "method" "<bound method>")
  | some _ => .ok .null
  | none => .error .noAttribute

/-- What is held under a name: what is set on the entity comes before what its class has. -/
def heldAttribute (w : World) (ref : EntityRef) (name : String) : Except Fault Value :=
  let entity := w.entityAt ref
  match Entries.get? entity.attributes (.str name) with
  | some v => .ok v
  | none => inherited w.registry entity.model name

/-- The value of the key of an entity. -/
def keyValue (w : World) (ref : EntityRef) : Except Fault Value := do
  let mapper ← w.registry.mapperOf (w.entityAt ref).model.id
  w.heldAttribute ref mapper.key

/-- The property of the class of an entity under a name. -/
def property? (w : World) (ref : EntityRef) (name : String) : Option Model.Property :=
  match w.registry.attribute? (w.entityAt ref).model.id name with
  | some (.property p) => some p
  | _ => none

/-- Reads an attribute. -/
def readAttribute (w : World) (ref : EntityRef) (name : String) : Except Fault Value :=
  match w.property? ref name with
  | some .key => w.keyValue ref
  | some .isNew => do return .bool (← w.keyValue ref).isNull
  | none => w.heldAttribute ref name

end World
end RowMapper
