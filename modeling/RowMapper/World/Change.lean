import RowMapper.Action
import RowMapper.Sql.Fragment
import RowMapper.World.Attribute
import RowMapper.World.Observation

/-!
# Changes of a world

The steps of which all operations on entities consist: running a statement, putting values on the
shelf, making an entity, and setting what it holds.
-/
namespace RowMapper.World

open Model (Registry)

/-! ## 1. Parts of the world -/

/-- The engine with the replies to come as they read now. -/
def expectantEngine (w : World) : Engine :=
  { w.engine with connection :=
      { w.engine.connection with replies := w.replies.map (ReplyDraft.eval w.scope) } }

/-- The world after an action of the engine, with the replies that are left. -/
def withEngine (w : World) (engine : Engine) : World :=
  let used := w.replies.length - engine.connection.replies.length
  { w with engine, replies := w.replies.drop used }

/-- An action of the engine as an action of the world. -/
def onEngine {α : Type} (action : Action Engine α) : Action World α := fun w =>
  match action.runOn w.expectantEngine with
  | (outcome, engine) => (outcome, w.withEngine engine)

/-- Something read from the world that may not be there. -/
def reading {α : Type} (read : World → Except Fault α) : Action World α := fun w => (read w, w)

/-- Changes the registry. -/
def modifyRegistry (change : Registry → Registry) : Action World Unit :=
  modify fun w => { w with registry := change w.registry }

/-- A printed form as something that may not be there. -/
def inWords (p : Printed) : Except Fault String := p.mapError .ofUnprintable

/-- Adds a record of the lowest level to the journal.  Where the journal wants no such records the
message is not even put into words. -/
def debug (source : String) (message : World → Printed) : Action World Unit := do
  let w ← get
  if w.engine.debugging then
    let text ← Action.ofExcept (inWords (message w))
    onEngine (Engine.report .debug (sourceName source) text)

/-- Runs one statement. -/
def query (statement : Sql.Fragment) : Action World Answer := do
  let w ← get
  onEngine (Engine.query w.observer statement.text (statement.params.map w.expand))

/-! ## 2. The shelf -/

/-- Puts a value on the shelf. -/
def store (v : Value) : Action World Value := fun w =>
  let (placed, shelf) := Shelf.store v w.shelf
  (.ok placed, { w with shelf })

/-- Puts a key on the shelf. -/
def storeKey (key : Value) : Action World Value := fun w =>
  let (placed, shelf) := Shelf.putKey w.shelf key
  (.ok placed, { w with shelf })

/-- Keeps a value in a variable. -/
def bind (name : String) (v : Value) : Action World Unit := do
  let placed ← store v
  modify fun w => { w with bindings := w.bindings.insert name placed }

/-! ## 3. Entities -/

/-- Changes an entity. -/
def updateEntity (ref : EntityRef) (change : Entity → Entity) : Action World Unit :=
  modify fun w => { w with entities := w.entities.set ref.id (change (w.entityAt ref)) }

/-- Puts a value under a name on an entity, whatever its class says of the name. -/
def holdAttribute (ref : EntityRef) (name value : Value) : Action World Unit := do
  let placed ← store value
  updateEntity ref fun e => { e with attributes := Entries.insert e.attributes name placed }

/-- Sets an attribute of an entity; a property cannot be set. -/
def setAttribute (ref : EntityRef) (name : String) (value : Value) : Action World Unit := do
  if ((← get).property? ref name).isSome then throw .noAttribute
  holdAttribute ref (.str name) value

/-- Sets attributes in order; a name that is no text stops at that point. -/
def setEntries (ref : EntityRef) : Entries → Action World Unit
  | [] => return
  | (name, value) :: rest => do
    match name.text? with
    | some name =>
      setAttribute ref name value
      setEntries ref rest
    | none => throw .wrongType

/-- Sets the state of an entity. -/
def setState (ref : EntityRef) (state : Lifecycle) : Action World Unit :=
  updateEntity ref fun e => { e with state }

/-- Makes an entity. -/
def addEntity (e : Entity) : Action World EntityRef := do
  let w ← get
  set { w with entities := w.entities ++ [e] }
  return ⟨w.entities.length, e.model.name⟩

end RowMapper.World
