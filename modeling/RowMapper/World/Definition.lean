import RowMapper.World.Attribute
import RowMapper.World.Change

/-!
# Defining a class

A class that descends from the root gets a mapper when it is defined.  The name of its table comes
from its settings, which it may inherit, or from its own body, or else it is the plural of its name.
-/
namespace RowMapper.World

open Model (Association AssociationKind AttributeBody Definition ModelClass Registry)

/-! ## 1. Classes -/

/-- What one of the settings says, or null; settings that count as false say nothing.  Of an entity
that serves as settings the key is read too. -/
def settingOf (w : World) (settings : Value) (name : String) : Except Fault Value := do
  let found := w.look settings
  if !found.truthy then return .null
  if let .entity ref := found then discard (w.keyValue ref)
  match w.attributeOf found name with
  | .ok v => return v
  | .error _ => return .null

/-- The setting that names a table. -/
def tableSetting : String := "table_name"

/-- The attribute with which a class names its own table. -/
def tableAttribute : String := "__tablename__"

/-- The name of the table of a new class. -/
def tableNameOf (w : World) (c : ModelClass) : Except Fault Value := do
  let r := w.registry
  let named ← match r.inheritedAttribute? c.attributes c.ancestry.tail Registry.settingsName with
    | some settings => w.settingOf (r.attributeValue settings) tableSetting
    | none => pure .null
  if (w.look named).truthy then return named
  let own := ((c.attributes.get? tableAttribute).map r.attributeValue).getD .null
  if (w.look own).truthy then return own
  return .str (Model.pluralize (Text.lower c.ref.name))

/-- Adds a new class, with its mapper if it is a model. -/
def addClass (w : World) (c : ModelClass) : Except Fault Registry :=
  if Registry.isModel c then do w.registry.addModel c (← w.tableNameOf c)
  else .ok (w.registry.addClass c)

/-- Defines a class and answers its number.  What the attributes of its body declare stays declared
even if the class is refused as a model. -/
def define (d : Definition) : Action World Nat := do
  let (registry, c) ← reading (·.registry.newClass d)
  modifyRegistry fun _ => registry
  let extended ← reading (·.addClass c)
  modifyRegistry fun _ => extended.nameClass d.key c.ref.id
  return c.ref.id

/-! ## 2. What classes hold -/

/-- Puts the values in the kind of an association on the shelf. -/
def storeKind : AssociationKind → Action World AssociationKind
  | .hasOne => return .hasOne
  | .hasMany => return .hasMany
  | .belongsTo key => return .belongsTo (← store key)
  | .belongsToMany through otherKey key =>
    return .belongsToMany (← store through) (← store otherKey) (← store key)

/-- Puts the values that an association was declared with on the shelf. -/
def storeAssociation (a : Association) : Action World Association := do
  return { a with
    kind := ← storeKind a.kind, target := ← store a.target, foreignKey := ← store a.foreignKey }

/-- Puts the values that a class shares with its users on the shelf. -/
def storeAttribute : AttributeBody → Action World AttributeBody
  | .column c => do
    match c.absent with
    | some (.fixed v) => return .column { c with absent := some (.fixed (← store v)) }
    | _ => return .column c
  | .association a => return .association (← storeAssociation a)
  | .plain v => return .plain (← store v)

/-- Puts named values on the shelf. -/
def storeNamed : Dictionary Value → Action World (Dictionary Value)
  | [] => return []
  | (name, v) :: rest => do
    let first ← store v
    let others ← storeNamed rest
    return (name, first) :: others

/-- Puts the values of attributes on the shelf. -/
def storeAttributes : List (String × AttributeBody) → Action World (List (String × AttributeBody))
  | [] => return []
  | (name, body) :: rest => do
    let first ← storeAttribute body
    let others ← storeAttributes rest
    return (name, first) :: others

/-- Defines a class whose values the class shares with its users. -/
def defineShared (d : Definition) : Action World Nat := do
  let settings ← match d.settings with
    | some settings => pure (some (← storeNamed settings))
    | none => pure none
  define { d with settings, attributes := ← storeAttributes d.attributes }

end RowMapper.World
