import RowMapper.Sql.Statement
import RowMapper.World.Definition

/-!
# Entities and their rows

Making entities, binding them to a session, and writing them to the database.  An entity that has no
session cannot reach the database.
-/
namespace RowMapper.World

open Model (Mapper)

/-! ## 1. Making and binding -/

/-- Makes an entity of a class with the given attributes; they are set one after another. -/
def make (model : Nat) (properties : Dictionary Value) : Action World EntityRef := do
  let ref ← addEntity { model := ((← get).registry.classAt model).ref }
  setEntries ref (Entries.ofNamed properties)
  return ref

/-- Makes an instance of a class: an entity, or of a class that is no model an object, which has no
attributes to set. -/
def instantiate (model : Nat) (properties : Dictionary Value) : Action World Value := do
  let r := (← get).registry
  if r.descends model 0 then return .entity (← make model properties)
  if !properties.isEmpty then throw .wrongType
  return .object (r.classAt model).ref

/-- Makes the entity of a row, without the columns left out. -/
def hydrate (model : Nat) (session : String) (excluded : List String) (row : Row) :
    Action World EntityRef := do
  let kept := (Dictionary.ofList row).filter fun entry => !excluded.contains entry.1
  let ref ← make model kept
  updateEntity ref fun e => { e with state := .persistent, session := some session }
  return ref

/-- Binds an entity to a session; leaving another session is reported. -/
def bindTo (session : String) (ref : EntityRef) : Action World Unit := do
  let w ← get
  if (w.entityAt ref).session.any (· ≠ session) then
    debug "mappify.session" fun w =>
      (w.literal (.entity ref)).map ("Rebinding " ++ · ++ " to a new session")
  updateEntity ref fun e => { e with session := some session }

/-- The session of an entity. -/
def sessionOf (ref : EntityRef) : Action World String := do
  match ((← get).entityAt ref).session with
  | some session => return session
  | none => throw (.unbound ref)

/-- Sets the attributes of a mapping. -/
def setProperties (ref : EntityRef) (properties : Value) : Action World Unit := do
  match (← get).look properties with
  | .mappingAt entries _ => setEntries ref entries
  | _ => throw .noAttribute

/-! ## 2. What is written -/

/-- What a default stands for in a new row. -/
def defaultValue : Model.Default → Action World Value
  | .fixed (.model ref) => instantiate ref.id []
  | .fixed v => return v
  | .fresh t => reading fun w => t.eval w.scope

/-- The data of a new row: the columns that are set, but for a key that is null, and the defaults
of the others.  The defaults that are used are set on the entity. -/
def insertData (ref : EntityRef) (key : String) :
    List (String × Model.Column) → Action World (Dictionary Value)
  | [] => return []
  | (name, column) :: rest => do
    match Entries.get? ((← get).entityAt ref).attributes (.str name), column.absent with
    | some value, _ =>
      let others ← insertData ref key rest
      return if name = key && value.isNull then others else (name, value) :: others
    | none, some absent =>
      let value ← defaultValue absent
      holdAttribute ref (.str name) value
      return (name, value) :: (← insertData ref key rest)
    | none, none => insertData ref key rest

/-- The columns that are set on an entity, in the order of the columns. -/
def heldColumns (e : Entity) (m : Mapper) : Dictionary Value :=
  m.columns.names.filterMap fun name =>
    (Entries.get? e.attributes (.str name)).map fun value => (name, value)

/-- The data of a changed row: the columns that are set, but for the key. -/
def updateData (e : Entity) (m : Mapper) : Dictionary Value :=
  (heldColumns e m).filter fun entry => entry.1 != m.key

/-- Whether a name starts with an underscore; only a text can be asked. -/
def isPrivate : Value → Except Fault Bool
  | .strAt name _ => .ok ("_".isPrefixOf name)
  | .bytesAt _ _ => .error .wrongType
  | _ => .error .noAttribute

/-- What is held besides columns, but for relations and private names. -/
def otherEntries (m : Mapper) : Entries → Except Fault Entries
  | [] => .ok []
  | (name, value) :: rest => do
    let hidden ← isPrivate name
    let others ← otherEntries m rest
    let known := m.columns.names.any (fun column => name.sameKey (.str column)) ||
      Entries.has m.associations name
    return if hidden || known then others else (name, value) :: others

/-- All that is known of an entity: its columns in order, and whatever else is set on it, but for
relations and private names. -/
def toDictionary (e : Entity) (m : Mapper) : Except Fault Entries := do
  return Entries.ofNamed (heldColumns e m) ++ (← otherEntries m e.attributes)

/-! ## 3. Writing -/

/-- Whether a count of affected rows is more than zero. -/
def isPositive : Value → Except Fault Bool
  | .bool b => .ok b
  | .intAt n _ => .ok (0 < n)
  | .floatAt x _ =>
    match x with
    | .nan => .ok false
    | .infinity negative => .ok !negative
    | .finite negative mantissa _ => .ok (!negative && mantissa != 0)
  | _ => .error .wrongType

/-- Whether a statement affected a row; rows are no answer to this. -/
def affected : Answer → Except Fault Bool
  | .rows _ => .error .noAttribute
  | .done _ count => isPositive count

/-- The key that a statement made. -/
def insertedKey : Answer → Except Fault Value
  | .rows _ => .error .noAttribute
  | .done insertId _ => .ok insertId

/-- Inserts an entity as a new row and answers its key, which comes from the database if the entity
has none. -/
def save (ref : EntityRef) : Action World Value := do
  let _ ← sessionOf ref
  let mapper ← reading (·.mapperOf ref)
  let columns := (← get).registry.columnsOf mapper
  let data ← insertData ref mapper.key columns
  let statement ←
    Action.ofExcept (Sql.insertRow mapper.tableName (.mapping (Entries.ofNamed data)))
  let answer ← query statement
  if (← reading (·.keyValue ref)).isNull then
    setAttribute ref mapper.key (← Action.ofExcept (insertedKey answer))
  setState ref .persistent
  reading (·.keyValue ref)

/-- Writes the columns that are set to the row of an entity, and answers whether there was one. -/
def update (ref : EntityRef) : Action World Bool := do
  let _ ← sessionOf ref
  let mapper ← reading (·.mapperOf ref)
  let data := updateData ((← get).entityAt ref) mapper
  let key ← reading (·.keyValue ref)
  let statement ← Action.ofExcept
    (Sql.updateRow mapper.tableName (.mapping (Entries.ofNamed data)) key (.str mapper.key))
  Action.ofExcept (affected (← query statement))

/-- Deletes the row of an entity, and answers whether there was one. -/
def delete (ref : EntityRef) : Action World Bool := do
  let _ ← sessionOf ref
  let mapper ← reading (·.mapperOf ref)
  let key ← reading (·.keyValue ref)
  let statement ← Action.ofExcept (Sql.deleteRow mapper.tableName key (.str mapper.key))
  let found ← Action.ofExcept (affected (← query statement))
  if found then setState ref .deleted
  return found

/-- Makes an entity, binds it and inserts it. -/
def create (session : String) (model : Nat) (properties : Dictionary Value) :
    Action World EntityRef := do
  let ref ← make model properties
  bindTo session ref
  let _ ← save ref
  return ref

end RowMapper.World
