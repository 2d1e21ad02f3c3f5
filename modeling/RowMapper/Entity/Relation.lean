import RowMapper.Finder.Query
import RowMapper.World.Finalization

/-!
# Related entities

Loading what an association of an entity leads to, and linking an entity to another one through
one.  Both work over the session of the owner.
-/
namespace RowMapper.World

open Model (Association)

/-- Which columns of the related rows are loaded. -/
structure Shape where
  attributes : Value := .null
  exclude : Value := .null

/-! ## 1. Loading -/

/-- The key of the owner of a relation, which has to be there. -/
def ownerKey (ref : EntityRef) (a : Association) : Action World Value := do
  let key ← reading (·.keyValue ref)
  if key.isNull then throw (.rejected (.unsavedOwner a.name ref))
  return key

/-- A filter that pins a column to a value. -/
def pinning (column value : Value) : Except Fault Value :=
  if column.hashable then .ok (.mapping [(column, value)]) else .error .wrongType

/-- The options that ask for the rows of a filter. -/
def relatedOptions (filter : Value) (shape : Shape) : Except Fault FindOptions :=
  FindOptions.parse .nothing
    [("where", filter), ("attributes", shape.attributes), ("exclude", shape.exclude)]

/-- The class that a target was resolved to. -/
def resolvedModel : Option ModelRef → Except Fault Nat
  | some ref => .ok ref.id
  | none => .error .noAttribute

/-- The value of the attribute that a foreign key names, or null where there is none. -/
def foreignValue (w : World) (ref : EntityRef) : Value → Except Fault Value
  | .strAt name _ =>
    match w.readAttribute ref name with
    | .ok v => .ok v
    | .error _ => .ok .null
  | _ => .error .wrongType

/-- An entity or null. -/
def entityOrNull : Option EntityRef → Value
  | some ref => .entity ref
  | none => .null

/-- The filter for rows whose column holds the key of the owner. -/
def ownedFilter (ref : EntityRef) (a : Association) : Action World Value := do
  let key ← ownerKey ref a
  reading fun w => pinning a.foreignKey (w.expand key)

/-- The one row of a model that a filter matches, or null. -/
def findRelated (session : String) (model : Nat) (filter : Value) (shape : Shape) :
    Action World Value := do
  return entityOrNull (← findOne session model (← Action.ofExcept (relatedOptions filter shape)))

/-- The related entity of one row of a joining table, if there is one. -/
def joined (session : String) (target : Nat) (otherKey key : Value) (shape : Shape)
    (row : EntityRef) : Action World (Option EntityRef) := do
  let other ← reading (foreignValue · row otherKey)
  if other.isNull then return none
  let filter ← reading fun w => pinning key (w.expand other)
  findOne session target (← Action.ofExcept (relatedOptions filter shape))

/-- Loads the related entities through a joining table: its rows first, and then one row of the
target for each. -/
def loadThrough (session : String) (ref : EntityRef) (a : Association) (otherKey key : Value)
    (shape : Shape) : Action World Value := do
  let through ← Action.ofExcept (resolvedModel a.resolvedThrough)
  let filter ← ownedFilter ref a
  let options ← Action.ofExcept (FindOptions.parse .nothing [("where", filter)])
  let rows ← findAll session through options
  let target ← Action.ofExcept (resolvedModel a.resolved)
  let related := (← rows.mapM (joined session target otherKey key shape)).filterMap id
  debug "mappify.associations" fun w => do
    return "Loaded " ++ toString related.length ++ " " ++ (← w.display a.name) ++ " through " ++
      toString rows.length ++ " join rows"
  return .list (related.map .entity)

/-- Loads what an association leads to.  What the foreign key lies on comes first: the target, or
the owner. -/
def load (session : String) (ref : EntityRef) (a : Association) (shape : Shape) :
    Action World Value := do
  match a.kind with
  | .hasOne =>
    let filter ← ownedFilter ref a
    findRelated session (← Action.ofExcept (resolvedModel a.resolved)) filter shape
  | .hasMany =>
    let filter ← ownedFilter ref a
    let model ← Action.ofExcept (resolvedModel a.resolved)
    let found ← findAll session model (← Action.ofExcept (relatedOptions filter shape))
    return .list (found.map .entity)
  | .belongsTo key =>
    let value ← reading (foreignValue · ref a.foreignKey)
    if value.isNull then return .null
    let model ← Action.ofExcept (resolvedModel a.resolved)
    let filter ← reading fun w => pinning key (w.expand value)
    findRelated session model filter shape
  | .belongsToMany _ otherKey key => loadThrough session ref a otherKey key shape

/-- The association of an entity under a name. -/
def associationOfEntity (ref : EntityRef) (name : Value) : Action World Association := do
  associationOf ((← get).entityAt ref).model.id name

/-- Loads an association of an entity, which then holds what was loaded under the name that was
asked for. -/
def populate (ref : EntityRef) (relation : Value) (shape : Shape) : Action World Unit := do
  let session ← sessionOf ref
  let a ← associationOfEntity ref relation
  holdAttribute ref relation (← load session ref a shape)

/-! ## 2. Linking -/

/-- Whether one row or many can be linked through an association. -/
def attachable (a : Association) : Bool :=
  match a.kind with
  | .hasOne => true
  | .hasMany => true
  | _ => false

/-- The entity among the values that is of the model an association leads to. -/
def attachedEntity (w : World) (a : Association) (relation target : Value) :
    Except Fault EntityRef := do
  let some expected := a.resolved | throw .wrongType
  let refused : Except Fault EntityRef :=
    .error (.association (.wrongTarget relation expected.name target.kind))
  match target with
  | .entity ref =>
    if w.registry.descends (w.entityAt ref).model.id expected.id then return ref else refused
  | _ => refused

/-- Sets the attribute that a foreign key names. -/
def setForeign (ref : EntityRef) (foreignKey value : Value) : Action World Unit :=
  match foreignKey.text? with
  | some name => setAttribute ref name value
  | none => throw .wrongType

/-- Lets an owner hold an entity that was linked to it: a list that it holds gets one more element,
wherever else that list is held. -/
def holdLinked (ref : EntityRef) (a : Association) (relation : Value) (target : EntityRef) :
    Action World Unit := do
  let w ← get
  let current := (Entries.get? (w.entityAt ref).attributes relation).getD .null
  match a.kind, current, w.look current with
  | .hasMany, .shared number, .listAt _ _ =>
    set { w with shelf := w.shelf.append number (.entity target) }
  | .hasMany, _, _ => holdAttribute ref relation (.list [.entity target])
  | _, _, _ => holdAttribute ref relation (.entity target)

/-- Links an entity to an owner through an association: the target gets the key of the owner and is
written, as a new row if it has no key yet. -/
def attach (ref : EntityRef) (target relation : Value) : Action World Unit := do
  let session ← sessionOf ref
  let a ← associationOfEntity ref relation
  if !attachable a then throw (.association (.notAttachable relation a.kind.name))
  let other ← reading (attachedEntity · a relation target)
  setForeign other a.foreignKey (← ownerKey ref a)
  if ((← get).entityAt other).session.isNone then bindTo session other
  if (← reading (·.keyValue other)).isNull then discard (save other)
  else discard (update other)
  holdLinked ref a relation other

end RowMapper.World
