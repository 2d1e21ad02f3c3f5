import RowMapper.World.Attribute
import RowMapper.World.Change

/-!
# Descriptions

What a script is told about classes, associations, entities and the answers of the database, as
values.
-/
namespace RowMapper.Script

open Model (Association)

/-- An answer of the database as a value. -/
def answerValue : Answer → Value
  | .rows rows => .list (rows.map fun row => .mapping (Entries.ofNamed (Dictionary.ofList row)))
  | .done insertId affectedRows => .outcome insertId affectedRows

/-- A list of entities as a value. -/
def entityList (refs : List EntityRef) : Value := .list (refs.map .entity)

/-- A printed form as a value. -/
def textValue (p : Printed) : Except Fault Value := (World.inWords p).map .str

/-- The mapper of a class as a value: its printed form. -/
def mapperName (w : World) (id : Nat) : Except Fault Value := do
  textValue (w.mapperText id (← w.mapper id))

/-- The name and the module of a class, or nulls. -/
def resolvedParts : Option ModelRef → List Value
  | some ref => [.str ref.name, .str ref.home]
  | none => [.null, .null]

/-- Everything about the mapper of a class. -/
def mapperValue (w : World) (id : Nat) : Except Fault Value := do
  let r := w.registry
  let mapper ← w.mapper id
  let name ← mapperName w id
  let columns := (r.columnsOf mapper).map fun entry => Value.str entry.2.text
  let associations ← mapper.associations.mapM fun entry => textValue (w.associationText entry.2)
  let resolved := mapper.associations.map fun entry =>
    Value.list (entry.1 :: resolvedParts (r.associationAt entry.2).resolved)
  return .list [name, .list columns, .list associations, .list resolved]

/-- An attribute of a class as it is printed. -/
def attributeText (w : World) (id : Nat) (name : String) : Except Fault Value := do
  textValue (w.literal (← w.classAttribute id name))

/-- The joining model of an association, by name and module; it has to be found. -/
def joiningValue (a : Association) : Except Fault Value :=
  match a.resolvedThrough with
  | some ref => .ok (.list [.str ref.name, .str ref.home])
  | none => .error .noAttribute

/-- Whether two values are the very same: what lies on the shelf by its number there, and what
exists only once if it is equal and of one type. -/
def isSame (a b : Value) : Bool :=
  a.sharePlace b || (a.place.isNone && b.place.isNone && a.kind == b.kind && a.sameKey b)

/-- What is seen of an entity from outside. -/
def inspection (w : World) (ref : EntityRef) : Except Fault Value := do
  let text ← textValue (w.literal (.entity ref))
  let key ← w.keyValue ref
  return .list [text, key, .bool key.isNull, .str (w.entityAt ref).state.name]

end RowMapper.Script
