import RowMapper.Dictionary
import RowMapper.Fault

/-!
# Named parameters

An operation that is asked for by name takes its arguments by name.  Some have to be given, the
others have defaults, and nothing else may be given.
-/
namespace RowMapper

/-- The parameters that have to be given, and those with a default. -/
structure Parameters where
  required : List String := []
  optional : List (String × Value) := []

namespace Parameters

/-- The names of all parameters. -/
def names (p : Parameters) : List String := p.required ++ p.optional.map (·.1)

/-- The values of all parameters. -/
def bind (p : Parameters) (arguments : Dictionary Value) : Except Fault (Dictionary Value) :=
  if arguments.names.any (fun name => !p.names.contains name) then .error .wrongType
  else if p.required.any (fun name => !arguments.has name) then .error .wrongType
  else .ok (Dictionary.update p.optional arguments)

/-- The value of a parameter among bound arguments. -/
def valueIn (arguments : Dictionary Value) (name : String) : Value :=
  (arguments.get? name).getD .null

end Parameters
end RowMapper
