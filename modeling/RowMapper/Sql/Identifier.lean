import RowMapper.Rejection

/-!
# Quoted identifiers

A table or column name is put between double quotes only if it is a word of ASCII letters, digits
and underscores that does not start with a digit; one line feed may follow the word.  A value of
another type is tried by its printed form, unless it counts as false.
-/
namespace RowMapper.Sql

/-- A letter of ASCII or an underscore. -/
def isWordStart (c : Char) : Bool := c.isAlpha || c == '_'

/-- A letter or a digit of ASCII, or an underscore. -/
def isWordChar (c : Char) : Bool := c.isAlphanum || c == '_'

/-- The characters after the first one: a word up to the end or up to a last line feed. -/
def safeRest : List Char → Bool
  | [] => true
  | c :: cs => (c == '\n' && cs.isEmpty) || (isWordChar c && safeRest cs)

/-- Whether a name may stand between double quotes. -/
def isSafeName : List Char → Bool
  | [] => false
  | c :: cs => isWordStart c && safeRest cs

/-- The text that a value is tried by as a name.  Every value that has none here is printed between
quotes or brackets, which no safe name has. -/
def nameText : Value → String
  | .strAt s _ => s
  | .bool b => if b then "True" else "False"
  | .intAt n _ => toString n
  | .floatAt x _ => x.text
  | _ => ""

/-- The safe name that a value stands for. -/
def safeName (identifier : Value) : Except Rejection String :=
  let text := nameText identifier
  if identifier.truthy && isSafeName text.toList then .ok text
  else .error (.unsafeIdentifier identifier)

/-- A name between double quotes. -/
def quote (name : String) : String := "\"" ++ name ++ "\""

/-- A value as a quoted identifier. -/
def quoteIdentifier (identifier : Value) : Except Rejection String :=
  (safeName identifier).map quote

end RowMapper.Sql
