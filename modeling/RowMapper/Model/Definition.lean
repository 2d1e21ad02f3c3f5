import RowMapper.Model.Association
import RowMapper.Model.Column
import RowMapper.Parameters

/-!
# Definitions of classes

What a caller writes to define a class: its bases, its attributes in order, and a hook that declares
associations when the class is finalized.  Classes are named by the keys under which they were
defined.
-/
namespace RowMapper.Model

/-- A declaration of an association in code, which is carried out each time that the code runs. -/
structure Declaration where
  word : String
  arguments : List (String × Term)
  deriving Inhabited

/-- An attribute in the body of a class. -/
inductive AttributeBody where
  | column (column : Column)
  | association (a : Association)
  | plain (value : Value)
  deriving Inhabited

/-- The definition of a class. -/
structure Definition where
  name : String
  key : String
  home : String := "app"
  bases : List String := ["Model"]
  /-- Settings that subclasses inherit, when the class has any of its own.  They make a class inside
  the class, unless an attribute takes its name. -/
  settings : Option (Dictionary Value) := none
  attributes : List (String × AttributeBody) := []
  hook : Option (List Declaration) := none
  deriving Inhabited

/-! ## Arguments of a declaration -/

/-- The default of the column that a foreign key points at. -/
def defaultKey : Value := .str "id"

/-- The parameters of an association, apart from its name. -/
def parametersOf? : String → Option Parameters
  | "hasOne" => some ⟨["target", "foreign_key"], []⟩
  | "hasMany" => some ⟨["target", "foreign_key"], []⟩
  | "belongsTo" => some ⟨["target", "foreign_key"], [("key", defaultKey)]⟩
  | "belongsToMany" =>
    some ⟨["target", "through", "foreign_key", "other_key"], [("key", defaultKey)]⟩
  | _ => none

/-- The kind of association that a word declares. -/
def kindOf (word : String) (value : String → Value) : AssociationKind :=
  match word with
  | "hasOne" => .hasOne
  | "hasMany" => .hasMany
  | "belongsTo" => .belongsTo (value "key")
  | _ => .belongsToMany (value "through") (value "other_key") (value "key")

/-- The association of a word with its arguments, still without a name. -/
def Association.ofArguments (word : String) (arguments : Dictionary Value) :
    Except Fault Association := do
  match parametersOf? word with
  | none => .error .noAttribute
  | some parameters =>
    let bound ← parameters.bind arguments
    let value := Parameters.valueIn bound
    return { kind := kindOf word value, target := value "target",
             foreignKey := value "foreign_key" }

end RowMapper.Model
