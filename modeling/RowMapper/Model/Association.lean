import RowMapper.Value.Literal

/-!
# Associations

A relation between two models, under a name, which is a text as a rule but can be any key.  The
target is given as a class, or as the name of a class or of its table, and is found when the model
is finalized; for a relation through a third model the same holds of that one.
-/
namespace RowMapper.Model

/-- The kinds of association, with what only some of them need: the column of the target that a
foreign key points at, and the joining model with its second foreign key. -/
inductive AssociationKind where
  | hasOne
  | hasMany
  | belongsTo (key : Value)
  | belongsToMany (through otherKey key : Value)
  deriving Inhabited

/-- The name of a kind. -/
def AssociationKind.name : AssociationKind → String
  | .hasOne => "hasOne"
  | .hasMany => "hasMany"
  | .belongsTo _ => "belongsTo"
  | .belongsToMany _ _ _ => "belongsToMany"

/-- The word with which an association of a kind is declared in the body of a class. -/
def AssociationKind.word : AssociationKind → String
  | .hasOne => "HasOne"
  | .hasMany => "HasMany"
  | .belongsTo _ => "BelongsTo"
  | .belongsToMany _ _ _ => "BelongsToMany"

/-- The kind with something done to the values in it. -/
def AssociationKind.map (f : Value → Value) : AssociationKind → AssociationKind
  | .hasOne => .hasOne
  | .hasMany => .hasMany
  | .belongsTo key => .belongsTo (f key)
  | .belongsToMany through otherKey key => .belongsToMany (f through) (f otherKey) (f key)

/-- An association, with the classes that it was resolved to. -/
structure Association where
  kind : AssociationKind
  name : Value := .null
  target : Value
  foreignKey : Value
  resolved : Option ModelRef := none
  resolvedThrough : Option ModelRef := none
  deriving Inhabited

/-- The association with something done to what it was declared with. -/
def Association.map (f : Value → Value) (a : Association) : Association :=
  { a with kind := a.kind.map f, target := f a.target, foreignKey := f a.foreignKey }

/-- The name of a class that was found, or what was asked for. -/
def targetName (display : Value → Printed) (resolved : Option ModelRef) (asked : Value) : Printed :=
  match resolved with
  | some ref => .ok ref.name
  | none => display asked

/-- An association as it is printed, given how values stand in a sentence. -/
def Association.text (display : Value → Printed) (a : Association) : Printed := do
  let name ← display a.name
  let target ← targetName display a.resolved a.target
  let start := "<" ++ a.kind.name ++ " " ++ name ++ " target=" ++ target
  match a.kind with
  | .belongsToMany through otherKey _ =>
    let through ← targetName display a.resolvedThrough through
    let foreignKey ← display a.foreignKey
    return start ++ " through=" ++ through ++ " foreign_key=" ++ foreignKey ++ " other_key=" ++
      (← display otherKey) ++ ">"
  | _ => return start ++ " foreign_key=" ++ (← display a.foreignKey) ++ ">"

end RowMapper.Model
