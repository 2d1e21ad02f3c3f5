import RowMapper.Rejection

/-!
# Faults

Every way in which an operation can fail, by cause.  `Fault.message` gives the wording; a fault
that only says that a value of the wrong type was used has none.
-/
namespace RowMapper

/-- What is wrong with one find option or one field of a request. -/
inductive ProblemKind where
  | dictType | listType | stringType | stringUnicode
  | intType | intParsing | intParsingSize | intFromFloat | finiteNumber | atLeast
  | floatType | floatParsing
  | extraForbidden | valueError | missing | notAnObject | malformedJson
  deriving DecidableEq, Inhabited

/-- The name of a problem in answers. -/
def ProblemKind.name : ProblemKind → String
  | .dictType => "dict_type"
  | .listType => "list_type"
  | .stringType => "string_type"
  | .stringUnicode => "string_unicode"
  | .intType => "int_type"
  | .intParsing => "int_parsing"
  | .intParsingSize => "int_parsing_size"
  | .intFromFloat => "int_from_float"
  | .finiteNumber => "finite_number"
  | .atLeast => "greater_than_equal"
  | .floatType => "float_type"
  | .floatParsing => "float_parsing"
  | .extraForbidden => "extra_forbidden"
  | .valueError => "value_error"
  | .missing => "missing"
  | .notAnObject => "model_attributes_type"
  | .malformedJson => "json_invalid"

/-- A problem and the place where it was found, from the outside in: names, positions and keys. -/
structure Problem where
  location : List Value
  kind : ProblemKind
  deriving Inhabited

/-- One step of a place as it is printed, also where that fails. -/
def placeStep (literal : Value → Printed) (v : Value) : String :=
  match v.displayBy literal with
  | .ok text => text
  | .error _ => "<unprintable " ++ v.kind ++ " object>"

/-- A place as it is printed. -/
def Problem.place (literal : Value → Printed) (p : Problem) : List String :=
  p.location.map (placeStep literal)

/-- A strict finder that matched no row. -/
inductive Missing where
  | byId (model key : String) (id : Value)
  | byWhere (model : String) (filter : Value)

/-- What is wrong with an association or with its use. -/
inductive AssociationFault where
  | unnamed (model : String)
  | duplicate (model : String) (relation : Value)
  | clashesWithColumn (model : String) (relation : Value)
  | unknown (model : String) (relation : Value)
  | unresolved (target : Value) (model : String)
  | notAttachable (relation : Value) (kind : String)
  | wrongTarget (relation : Value) (expected found : String)

/-- A transaction step at the wrong time. -/
inductive TransactionFault where
  | alreadyActive
  | nothingToCommit
  | nothingToRollBack

/-- A value of the right type that has no meaning. -/
inductive BadValue where
  | notInteger (literal : String)
  | notFloat (literal : String)
  | tooManyDigits (digits : Nat)
  /-- An integer whose digits are too many to be written. -/
  | tooLongToWrite
  | nanAsInteger
  | unknownLogic
  | unknownLevel (name : String)
  | notAPair (index length : Nat)

/-- A failure, by cause. -/
inductive Fault where
  | rejected (why : Rejection)
  | badOptions (problems : List Problem)
  | missing (what : Missing)
  | association (why : AssociationFault)
  /-- An entity without a session was asked to reach the database. -/
  | unbound (entity : EntityRef)
  /-- The database refused; with the statement and its parameters where there was one. -/
  | database (message : String) (statement : Option String) (params : Option (List Value))
  | transaction (why : TransactionFault)
  | badValue (why : BadValue)
  /-- A number that the database or an integer cannot hold. -/
  | overflow (message : String)
  /-- A block that its caller ended with an error of its own. -/
  | aborted (message : String)
  | wrongType
  | noAttribute
  | noIndex
  /-- Parts that stand too deep inside each other. -/
  | tooDeep
  | notImplemented
  /-- A name that no variable has, or a variable that holds no entity. -/
  | unknownVariable
  /-- A key under which no class was defined. -/
  | unknownModel

/-- The fault of a value that cannot be printed. -/
def Fault.ofUnprintable : Unprintable → Fault
  | .keyless => .noAttribute
  | .endless => .tooDeep

/-- The wording for a finder that matched nothing. -/
def Missing.message (literal : Value → Printed) : Missing → Printed
  | .byId model key id => do
    return model ++ " with " ++ key ++ "=" ++ (← literal id) ++ " not found"
  | .byWhere model filter => do return "No " ++ model ++ " matches " ++ (← literal filter)

/-- The wording of an association fault. -/
def AssociationFault.message (literal : Value → Printed) (fault : AssociationFault) : Printed := do
  let quoted (name : Value) : Printed := (name.displayBy literal).map fun s => "'" ++ s ++ "'"
  match fault with
  | .unnamed model => return model ++ ": an association needs an alias"
  | .duplicate model relation =>
    return model ++ " already has an association named " ++ (← quoted relation)
  | .clashesWithColumn model relation =>
    return model ++ ": alias " ++ (← quoted relation) ++ " clashes with a column"
  | .unknown model relation => return model ++ " has no association named " ++ (← quoted relation)
  | .unresolved target model =>
    return "Cannot resolve association target " ++ (← literal target) ++ " for " ++ model
  | .notAttachable relation kind =>
    return "attach() only supports hasOne/hasMany, " ++ (← quoted relation) ++ " is " ++ kind
  | .wrongTarget relation expected found =>
    return (← quoted relation) ++ " expects a " ++ expected ++ ", got " ++ found

/-- The wording of a transaction fault. -/
def TransactionFault.message : TransactionFault → String
  | .alreadyActive => "A transaction is already active on this connection"
  | .nothingToCommit => "commit() called without an active transaction"
  | .nothingToRollBack => "rollback() called without an active transaction"

/-- The wording for a value without meaning. -/
def BadValue.message : BadValue → String
  | .notInteger literal => "invalid literal for int() with base 10: " ++ literal
  | .notFloat literal => "could not convert string to float: " ++ literal
  | .tooManyDigits digits =>
    "Exceeds the limit (4300 digits) for integer string conversion: value has " ++
      toString digits ++ " digits; use sys.set_int_max_str_digits() to increase the limit"
  | .tooLongToWrite =>
    "Exceeds the limit (4300 digits) for integer string conversion; " ++
      "use sys.set_int_max_str_digits() to increase the limit"
  | .nanAsInteger => "cannot convert float NaN to integer"
  | .unknownLogic => "Logic must be 'and' or 'or'"
  | .unknownLevel name => "Unknown level: " ++ Text.quoted name
  | .notAPair index length =>
    "dictionary update sequence element #" ++ toString index ++ " has length " ++
      toString length ++ "; 2 is required"

/-- The wording of a fault, if it has one. -/
def Fault.message? (literal : Value → Printed) : Fault → Except Unprintable (Option String)
  | .rejected why => (why.message literal).map some
  | .badOptions _ => .ok (some "Invalid query options")
  | .missing what => (what.message literal).map some
  | .association why => (why.message literal).map some
  | .unbound entity => do
    return some ((← literal (.entity entity)) ++
      " is not bound to a session; use session.add() or session.create()")
  | .database message _ _ => .ok (some message)
  | .transaction why => .ok (some why.message)
  | .badValue why => .ok (some why.message)
  | .overflow message => .ok (some message)
  | .aborted message => .ok (some message)
  | _ => .ok none

/-- The fault that is left when a fault is put into words: that of a value in it that cannot be
printed, or else itself. -/
def Fault.inWords (literal : Value → Printed) (fault : Fault) : Fault × Option String :=
  match fault.message? literal with
  | .ok message => (fault, message)
  | .error why => (.ofUnprintable why, none)

/-- A rejection as a fault. -/
def orFault {α : Type} : Except Rejection α → Except Fault α
  | .ok a => .ok a
  | .error why => .error (.rejected why)

end RowMapper
