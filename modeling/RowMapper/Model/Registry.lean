import RowMapper.Model.Definition
import RowMapper.Model.Linearization
import RowMapper.Model.Plural
import RowMapper.Text.Case

/-!
# The registry of classes

All classes that were defined, with the columns and the associations that their bodies declare.
Columns and associations are shared: a class that inherits one holds the very same, so they are kept
in tables of their own and classes refer to them by number.  Class 0 is the root of all models; a
class that does not descend from it is a mixin, which has attributes but no mapper.
-/
namespace RowMapper.Model

/-- What every entity answers without having it set: its key, and whether it has none yet. -/
inductive Property where
  | key
  | isNew
  deriving DecidableEq, Inhabited

/-- An attribute of a class.  An operation is one of the class itself, or one of its entities. -/
inductive ClassAttribute where
  | column (index : Nat)
  | association (index : Nat)
  | plain (value : Value)
  | property (p : Property)
  | operation (ofClass : Bool)
  deriving Inhabited

/-- How a model is stored: its table, its columns, its key, and its associations. -/
structure Mapper where
  tableName : Value
  columns : Dictionary Nat
  key : String
  associations : List (Value × Nat)
  finalized : Bool := false
  deriving Inhabited

/-- A class with all its ancestors, itself first. -/
structure ModelClass where
  ref : ModelRef
  ancestry : List Nat
  attributes : Dictionary ClassAttribute := []
  mapper : Option Mapper := none
  hook : Option (List Declaration) := none
  deriving Inhabited

/-- All classes, columns and associations, and the classes by their keys. -/
structure Registry where
  classes : List ModelClass
  columns : List Column := []
  associations : List Association := []
  keys : Dictionary Nat
  deriving Inhabited

namespace Registry

/-- The name of the root of all models, which is also its key. -/
def rootName : String := "Model"

/-- The operations that every model has. -/
def rootOperations : Dictionary ClassAttribute :=
  ["associations", "has_one", "has_many", "belongs_to", "belongs_to_many"].map
    (fun name => (name, .operation true)) ++
  ["set_properties", "to_dict", "save", "create", "update", "delete", "populate", "attach"].map
    (fun name => (name, .operation false))

/-- The root of all models, with the properties and the operations that every entity has. -/
def root : ModelClass where
  ref := ⟨0, rootName, "mappify.base"⟩
  ancestry := [0]
  attributes := [("pk_value", .property .key), ("is_new", .property .isNew)] ++ rootOperations
  hook := some []

/-- The registry that holds only the root of all models. -/
def initial : Registry := { classes := [root], keys := [(rootName, 0)] }

/-! ## 1. Looking up -/

/-- The class of a number. -/
def classAt (r : Registry) (id : Nat) : ModelClass := r.classes[id]?.getD default

/-- The column of a number. -/
def columnAt (r : Registry) (index : Nat) : Column := r.columns[index]?.getD default

/-- The association of a number. -/
def associationAt (r : Registry) (index : Nat) : Association := r.associations[index]?.getD default

/-- The class under a key. -/
def find (r : Registry) (key : String) : Except Fault Nat :=
  match r.keys.get? key with
  | some id => .ok id
  | none => .error .unknownModel

/-- The mapper of a class; a mixin and the root have none. -/
def mapperOf (r : Registry) (id : Nat) : Except Fault Mapper :=
  match (r.classAt id).mapper with
  | some mapper => .ok mapper
  | none => .error .noAttribute

/-- Whether a class is another one or descends from it. -/
def descends (r : Registry) (id ancestor : Nat) : Bool := (r.classAt id).ancestry.contains ancestor

/-- An attribute of a class, as the class has it or else the nearest of the ancestors that has one
of the name. -/
def inheritedAttribute? (r : Registry) (own : Dictionary ClassAttribute) (ancestors : List Nat)
    (name : String) : Option ClassAttribute :=
  own.get? name <|> ancestors.findSome? fun ancestor => (r.classAt ancestor).attributes.get? name

/-- An attribute of a class, which may be inherited. -/
def attribute? (r : Registry) (id : Nat) (name : String) : Option ClassAttribute :=
  r.inheritedAttribute? [] (r.classAt id).ancestry name

/-- What an attribute is to whoever asks the class for it. -/
def attributeValue (r : Registry) : ClassAttribute → Value
  | .column index => .column ⟨index, (r.columnAt index).spelling⟩
  | .association index => .association ⟨index, (r.associationAt index).kind.word⟩
  | .plain v => v
  | .property _ => .other "property" "<property object>"
  | .operation true => .other "method" "<bound method>"
  | .operation false => .other "function" "<function>"

/-- The columns of a mapper in order. -/
def columnsOf (r : Registry) (m : Mapper) : List (String × Column) :=
  m.columns.map fun entry => (entry.1, r.columnAt entry.2)

/-- A mapper as it is printed, given how values are printed. -/
def mapperText (r : Registry) (literal : Value → Printed) (id : Nat) (m : Mapper) : Printed := do
  let table ← m.tableName.displayBy literal
  let associations ← literal (.list (m.associations.map (·.1)))
  return "<Mapper class=" ++ (r.classAt id).ref.name ++ " table=" ++ table ++
    " columns=[" ++ ", ".intercalate m.columns.names ++ "] pk=" ++ m.key ++
    " associations=" ++ associations ++ ">"

/-! ## 2. Defining a class -/

/-- Adds a column. -/
def addColumn (r : Registry) (c : Column) : Registry × Nat :=
  ({ r with columns := r.columns ++ [c] }, r.columns.length)

/-- Adds an association. -/
def addAssociation (r : Registry) (a : Association) : Registry × Nat :=
  ({ r with associations := r.associations ++ [a] }, r.associations.length)

/-- Changes a column. -/
def updateColumn (r : Registry) (index : Nat) (change : Column → Column) : Registry :=
  { r with columns := r.columns.set index (change (r.columnAt index)) }

/-- Changes an association. -/
def updateAssociation (r : Registry) (index : Nat) (change : Association → Association) :
    Registry :=
  { r with associations := r.associations.set index (change (r.associationAt index)) }

/-- Adds what an attribute in the body of a class declares.  A column or an association of another
class that is used again goes by the new name from then on. -/
def addAttribute (r : Registry) (name : String) : AttributeBody → Registry × ClassAttribute
  | .column c =>
    let (r, index) := r.addColumn { c with name }
    (r, .column index)
  | .association a =>
    let (r, index) := r.addAssociation { a with name := .str name }
    (r, .association index)
  | .plain (.column ref) =>
    (r.updateColumn ref.index fun c => { c with name }, .column ref.index)
  | .plain (.association ref) =>
    (r.updateAssociation ref.index fun a => { a with name := .str name }, .association ref.index)
  | .plain v => (r, .plain v)

/-- Adds the attributes of the body of a class. -/
def addAttributes (r : Registry) :
    List (String × AttributeBody) → Registry × Dictionary ClassAttribute
  | [] => (r, [])
  | (name, body) :: rest =>
    let (r, declared) := r.addAttribute name body
    let (r, others) := r.addAttributes rest
    (r, (name, declared) :: others)

/-- The attributes of a chain of classes that `select` picks, those of the last class first. -/
def collect (select : ClassAttribute → Option Nat) (chain : List (Dictionary ClassAttribute)) :
    Dictionary Nat :=
  let picked (attributes : Dictionary ClassAttribute) : List (String × Nat) :=
    attributes.filterMap fun entry => (select entry.2).map fun index => (entry.1, index)
  Dictionary.ofList (chain.reverse.flatMap picked)

/-- The number of the column that an attribute is. -/
def column? : ClassAttribute → Option Nat
  | .column index => some index
  | _ => none

/-- The number of the association that an attribute is. -/
def association? : ClassAttribute → Option Nat
  | .association index => some index
  | _ => none

/-- The name of the implicit key. -/
def implicitKey : String := "id"

/-- The column that serves as key where a class declares none. -/
def implicitColumn : Column :=
  { name := implicitKey, spelling := "Number", type := .integer, isKey := true }

/-- Marks a column as a key. -/
def markKey (r : Registry) (index : Nat) : Registry :=
  r.updateColumn index fun c => { c with isKey := true }

/-- What a class gets for its key: the registry, its attributes, its columns, and the key. -/
structure Keyed where
  registry : Registry
  attributes : Dictionary ClassAttribute
  columns : Dictionary Nat
  key : String

/-- Finds the key among the columns: the one declared as such, or else the column `id`, which is
marked, or else a new one, which comes first. -/
def resolveKey (r : Registry) (model : String) (attributes : Dictionary ClassAttribute)
    (columns : Dictionary Nat) : Except Fault Keyed :=
  match (columns.filter fun entry => (r.columnAt entry.2).isKey).map (·.1) with
  | [key] => .ok ⟨r, attributes, columns, key⟩
  | [] =>
    match columns.get? implicitKey with
    | some index => .ok ⟨r.markKey index, attributes, columns, implicitKey⟩
    | none =>
      let (r, index) := r.addColumn implicitColumn
      .ok ⟨r, attributes.insert implicitKey (.column index), (implicitKey, index) :: columns,
        implicitKey⟩
  | keys => .error (.rejected (.severalKeys model keys))

/-- Adds a class. -/
def addClass (r : Registry) (c : ModelClass) : Registry := { r with classes := r.classes ++ [c] }

/-- Puts a class under a key. -/
def nameClass (r : Registry) (key : String) (id : Nat) : Registry :=
  { r with keys := r.keys.insert key id }

/-- The name of the class that holds the settings of a class. -/
def settingsName : String := "Meta"

/-- Adds a class with settings as its attributes. -/
def addSettings (r : Registry) (home : String) (settings : Dictionary Value) :
    Registry × ModelRef :=
  let ref : ModelRef := ⟨r.classes.length, settingsName, home⟩
  let body := (Dictionary.ofList settings).map fun entry => (entry.1, AttributeBody.plain entry.2)
  let (r, attributes) := r.addAttributes body
  (r.addClass { ref, ancestry := [ref.id], attributes }, ref)

/-- The body of a class: its settings come first, as an attribute. -/
def bodyOf (r : Registry) (d : Definition) : Registry × List (String × AttributeBody) :=
  match d.settings with
  | none => (r, d.attributes)
  | some settings =>
    let (r, ref) := r.addSettings d.home settings
    (r, (settingsName, .plain (.model ref)) :: d.attributes)

/-- A new class with the attributes of its body, and the registry to which it can be added. -/
def newClass (r : Registry) (d : Definition) : Except Fault (Registry × ModelClass) := do
  let bases ← d.bases.mapM r.find
  let (r, body) := r.bodyOf d
  let id := r.classes.length
  let some ancestry := linearize id bases (bases.map fun base => (r.classAt base).ancestry)
    | throw .wrongType
  let (r, attributes) := r.addAttributes (Dictionary.ofList body)
  return (r, { ref := ⟨id, d.name, d.home⟩, ancestry, attributes, hook := d.hook })

/-- Whether a new class is a model, and not a mixin. -/
def isModel (c : ModelClass) : Bool := c.ancestry.contains 0

/-- Adds a class that descends from the root, with its mapper. -/
def addModel (r : Registry) (c : ModelClass) (tableName : Value) : Except Fault Registry := do
  let inherited := c.ancestry.tail.map fun ancestor => (r.classAt ancestor).attributes
  let columns := collect column? (c.attributes :: inherited)
  let keyed ← r.resolveKey c.ref.name c.attributes columns
  let associations := (collect association? (keyed.attributes :: inherited)).map fun entry =>
    (Value.str entry.1, entry.2)
  let mapper : Mapper := { tableName, columns := keyed.columns, key := keyed.key, associations }
  return keyed.registry.addClass { c with attributes := keyed.attributes, mapper := some mapper }

end Registry
end RowMapper.Model
