import RowMapper.Finder.Options
import RowMapper.World.Change

/-!
# The arguments of a step

A step names classes, entities and values by keys, paths and terms.  They are read in the world in
which the step runs.
-/
namespace RowMapper

namespace Term

variable (scope : Scope)

/-- Find options from a term: a value that counts as false gives none. -/
def source (t : Term) : Except Fault OptionSource := do
  let v ← t.read scope
  if v.truthy then
    match v with
    | .mappingAt entries _ => return .entries entries
    | _ => return .unusable
  else return .nothing

/-- The name of the argument that holds find options. -/
def optionsArgument : String := "options"

/-- Arguments given by name; the options themselves cannot be among them. -/
def named (t : Term) : Except Fault (Dictionary Value) := do
  match ← t.read scope with
  | .mappingAt entries _ =>
    let arguments ← FindOptions.namedArguments entries
    if arguments.has optionsArgument then throw .wrongType
    return arguments
  | _ => throw .wrongType

end Term

namespace Script

open World (reading)

/-- The number of the class under a key. -/
def model (key : String) : Action World Nat := reading (·.registry.find key)

/-- The value of a term, to be held. -/
def value (t : Term) : Action World Value := reading fun w => t.eval w.scope

/-- The value of a term, to be read. -/
def plainValue (t : Term) : Action World Value := reading fun w => t.read w.scope

/-- The entity at a path. -/
def entity (path : List String) : Action World EntityRef := reading fun w => do
  match ← w.valueAt path with
  | .entity ref => return ref
  | _ => throw .unknownVariable

/-- The attributes that a term names. -/
def properties (t : Term) : Action World (Dictionary Value) := reading fun w => do
  match w.look (← t.eval w.scope) with
  | .mappingAt entries _ =>
    match Entries.named? entries with
    | some named => return named
    | none => throw .wrongType
  | _ => throw .wrongType

/-- A query on a model, with its options. -/
def options (model : Nat) (source more : Term) : Action World FindOptions := do
  let source ← reading fun w => source.source w.scope
  let more ← reading fun w => more.named w.scope
  discard (reading (·.mapper model))
  Action.ofExcept (FindOptions.parse source more)

/-- No arguments by name. -/
def noMore : Term := .mapping []

end Script
end RowMapper
